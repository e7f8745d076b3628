import SpeedySweeties.Records.Edits

/-! The activity traces of an order: its dispatch events, edit pauses, pickup stops and
check-in events. The erasure deletes each kind with one statement; their writers do not
look at the order, or looked at it earlier, so a trace comes back exactly where one is
inserted behind that statement. -/
namespace SpeedySweeties

/-- The order has none of the rows that the statement deletes. -/
def NoTrace (r : OrderRows) : ErasureStatement → Prop
  | .dispatchEvents => r.dispatchEvents = []
  | .editPauses => r.editPauses = []
  | .pickupStops => r.pickupStops = []
  | .checkIns => r.checkIns = []
  | _ => True

def Erasure.done (e : Erasure) (r : OrderRows) (statement : ErasureStatement) : Prop :=
  if r.id ∈ e.ids then statement ∉ e.todo r.id else r.order.privacyErasedAt ≠ none

theorem statementNoTrace {r : OrderRows} {statement other : ErasureStatement} {now retainUntil : Time}
    {read : Option DigitalReceipt} (before : other = statement ∨ NoTrace r other) :
    NoTrace (statement.apply now retainUntil read r) other := by
  rcases before with rfl | before
  · cases other <;> simp [NoTrace,ErasureStatement.apply]
  · cases statement with
    | receipts => cases read <;> exact before
    | items | orders | helpRequests => cases other <;> exact before
    | _ => cases other <;> first | rfl | exact before

namespace RecordSystem
variable {T : TextService} {s t : RecordSystem} {a : RecordAction} {id : OrderId} {r : OrderRows} {w : RowWrite}

/-- The order is erased, or the erasure in progress has run the statement for it. -/
def Cleaned (s : RecordSystem) (id : OrderId) (statement : ErasureStatement) : Prop :=
  (∃ r, s.rows.find id = some r ∧ r.order.privacyErasedAt ≠ none) ∨
    ∃ e, s.erasure = some e ∧ id ∈ e.ids ∧ statement ∉ e.todo id

/-- No dispatch event, stopped edit pause or check-in event is inserted for an order that
has been cleaned of them. -/
def InsertsNoTrace (s : RecordSystem) : RecordAction → Prop
  | .recordEvent index => ∀ event, s.unrecorded[index]? = some event → ¬ s.Cleaned event.orderId .dispatchEvents
  | .checkIn request _ _ _ => ∀ id, s.checkIns request = some id → ¬ s.Cleaned id .checkIns
  | .updateEditPause _ input _ => input.action = .stop → findPause s.rows input.sessionId = none →
      ¬ s.Cleaned input.orderId .editPauses
  | _ => True

/-- Orders that an erasure has in scope or has erased are closed. -/
def ClosedSound (s : RecordSystem) : Prop :=
  ∀ r ∈ s.rows.rows, (r.order.privacyErasedAt ≠ none ∨ ∃ e, s.erasure = some e ∧ r.id ∈ e.ids) →
    r.order.orderStatus.final = true

theorem closedStep (closed : ClosedSound s) (sound : ErasureSound s) (pending : PendingSound T s)
    (move : RowsStep T s a t) : ClosedSound t := by
  cases move with
  | aside rows erasure =>
    unfold ClosedSound
    rwa [rows,erasure]
  | written r w row source _ rows erasure =>
    intro written mem reason
    rw [rows] at mem
    have inScope : ∀ x : OrderRows, x.id = written.id → (∃ e, t.erasure = some e ∧ written.id ∈ e.ids) →
        ∃ e, s.erasure = some e ∧ x.id ∈ e.ids := by
      rintro x same ⟨e',live,scope⟩
      obtain ⟨e,old,rfl⟩ := Option.map_eq_some_iff.mp (erasure ▸ live)
      exact ⟨e,old,same ▸ scope⟩
    rcases memWritten row mem with there | rfl
    · exact closed _ there (reason.imp_right (inScope _ rfl))
    · rw [writeErasedAt] at reason
      have final := closed r (Table.find_some row).1 (reason.imp_right (inScope r (w.applyId r).symm))
      rwa [finalStatus pending source final]
  | created other input address location answer items now _ _ rows _ still =>
    intro r mem reason
    rw [rows] at mem
    rcases reason with erased | ⟨e,live,_⟩
    · rcases Table.mem_put mem with rfl | ⟨mem,_⟩
      · exact absurd rfl erased
      · exact closed r mem (.inl erased)
    · simp [still] at live
  | started e _ rows erasure _ _ _ _ customer scope final =>
    intro r mem reason
    rw [rows] at mem
    rcases reason with erased | ⟨e',live,inside⟩
    · exact closed r mem (.inl erased)
    · cases Option.some.inj (erasure.symm.trans live)
      exact final r mem (scopeCustomer scope mem inside)
  | read e live _ rows _ erasure =>
    intro r mem reason
    rw [rows] at mem
    refine closed r mem (reason.imp_right ?_)
    rintro ⟨e',live',inside⟩
    cases Option.some.inj (erasure.symm.trans live')
    exact ⟨e,live,inside⟩
  | erased e _ _ _ _ live _ _ _ _ rows erasure =>
    intro r mem reason
    rw [rows] at mem
    refine closed r mem (reason.imp_right ?_)
    rintro ⟨e',live',inside⟩
    cases Option.some.inj (erasure.symm.trans live')
    exact ⟨e,live,inside⟩
  | committed e _ live done rows erasure =>
    intro working mem reason
    rw [rows] at mem
    obtain ⟨r,found,view⟩ := (sound.view e live).flip.found (Table.find_of_mem mem)
    have there := (Table.find_some found).1
    by_cases scope : r.id ∈ e.ids
    · have record := view.finished scope (done _ scope)
      rw [eraseWithAll] at record
      rw [(retainedEq.mp record).1]
      exact closed r there (.inr ⟨e,live,scope⟩)
    · have order := (retainedEq.mp (view.outside scope)).1
      rw [order] at reason ⊢
      refine closed r there (reason.imp_right ?_)
      rintro ⟨e',live',_⟩
      simp [erasure] at live'
  | aborted rows erasure =>
    intro r mem reason
    rw [rows] at mem
    refine closed r mem (reason.imp_right ?_)
    rintro ⟨e',live',_⟩
    simp [erasure] at live'

/-- An allowed write brings no trace of a kind the order has been cleaned of; `x` is the row
the write finds, or an erasure's view of it. -/
theorem writeNoTrace {statement : ErasureStatement} {x : OrderRows} (closed : ClosedSound s)
    (allowed : InsertsNoTrace s a) (row : s.rows.find r.id = some r) (source : WriteSource T s a r w)
    (cleaned : s.Cleaned r.id statement) (before : NoTrace x statement) : NoTrace (w.apply x) statement := by
  cases source with
  | recorded waiting here =>
    cases statement with
    | dispatchEvents => exact absurd (here ▸ cleaned) (allowed _ waiting)
    | _ => exact before
  | checkedIn found =>
    simp only [RowWrite.apply]
    split
    · exact before
    · cases statement with
      | checkIns => exact absurd cleaned (allowed _ found)
      | _ => exact before
  | @paused process input now _ _ here written =>
    have final : r.order.orderStatus.final = true := by
      refine closed r (Table.find_some row).1 ?_
      rcases cleaned with ⟨r',found,erased⟩ | ⟨e,live,scope,_⟩
      · cases Option.some.inj (row.symm.trans found)
        exact .inl erased
      · exact .inr ⟨e,live,scope⟩
    have ineligible : r.pauseEligible = false := by
      rw [OrderRows.pauseEligible,decide_eq_false_iff_not]
      rintro ⟨placed,_⟩
      rw [placed] at final
      cases final
    rcases pauseSource written with ⟨session,rfl⟩ | ⟨⟨session,rfl⟩,unknown,stops | eligible⟩
    · cases statement with
      | editPauses => exact List.map_eq_nil_iff.mpr before
      | _ => exact before
    · cases statement with
      | editPauses => exact absurd (here ▸ cleaned) (allowed stops unknown)
      | _ => exact before
    · rw [ineligible] at eligible
      cases eligible
  | cleared => cases statement <;> first | rfl | exact before
  | _ => cases statement <;> exact before

structure TracesSound (s : RecordSystem) : Prop where
  erased : ∀ r ∈ s.rows.rows, r.order.privacyErasedAt ≠ none → ∀ statement, NoTrace r statement
  view : ∀ e, s.erasure = some e → ∀ working ∈ e.working.rows, ∀ statement, e.done working statement →
    NoTrace working statement

/-- What an erasure has done for an order in its view of it, the order has been cleaned of. -/
theorem doneCleaned {e : Erasure} {working : OrderRows} {statement : ErasureStatement} (sound : ErasureSound s)
    (live : s.erasure = some e) (there : working ∈ e.working.rows) (done : e.done working statement) :
    s.Cleaned working.id statement := by
  unfold Erasure.done at done
  split at done
  · rename_i scope
    exact .inr ⟨e,live,scope,done⟩
  · rename_i outside
    obtain ⟨r,found,view⟩ := (sound.view e live).flip.found (Table.find_of_mem there)
    have key : r.id = working.id := Table.find_key found
    refine .inl ⟨r,found,?_⟩
    rwa [← (retainedEq.mp (view.outside (key ▸ outside))).1]

theorem tracesWritten (h : TracesSound s) (sound : ErasureSound s) (closed : ClosedSound s)
    (allowed : InsertsNoTrace s a) (row : s.rows.find r.id = some r) (source : WriteSource T s a r w)
    (rows : t.rows = writeRows s.rows r.id w)
    (erasure : t.erasure = s.erasure.map fun e => { e with working := writeRows e.working r.id w }) :
    TracesSound t := by
  constructor
  · intro written mem erased statement
    rw [rows] at mem
    rcases memWritten row mem with there | rfl
    · exact h.erased _ there erased statement
    · rw [writeErasedAt] at erased
      have before := h.erased r (Table.find_some row).1 erased statement
      exact writeNoTrace closed allowed row source (.inl ⟨r,row,erased⟩) before
  · intro e' live written mem statement done
    obtain ⟨e,old,rfl⟩ := Option.map_eq_some_iff.mp (erasure ▸ live)
    obtain ⟨working,found,_⟩ := (sound.view e old).found row
    have key : working.id = r.id := Table.find_key found
    rw [← key] at mem found
    rcases memWritten found mem with there | rfl
    · exact h.view e old _ there statement done
    · have done : e.done working statement := by
        unfold Erasure.done at done ⊢
        rwa [RowWrite.applyId,writeErasedAt] at done
      have there := (Table.find_some found).1
      have cleaned := key ▸ doneCleaned sound old there done
      exact writeNoTrace closed allowed row source cleaned (h.view e old working there statement done)

theorem TracesSound.step (h : TracesSound s) (sound : ErasureSound s) (closed : ClosedSound s)
    (allowed : InsertsNoTrace s a) (move : RowsStep T s a t) : TracesSound t := by
  cases move with
  | aside rows erasure => exact ⟨rows ▸ h.erased,erasure ▸ h.view⟩
  | written r w row source _ rows erasure => exact tracesWritten h sound closed allowed row source rows erasure
  | created id input address location answer items now _ _ rows _ still =>
    refine ⟨fun r mem erased => ?_,fun e live => by simp [still] at live⟩
    rw [rows] at mem
    rcases Table.mem_put mem with rfl | ⟨mem,_⟩
    · exact absurd rfl erased
    · exact h.erased r mem erased
  | started e _ rows erasure _ working _ todo =>
    refine ⟨rows ▸ h.erased,fun e' live r mem statement done => ?_⟩
    cases Option.some.inj (erasure.symm.trans live)
    rw [working] at mem
    unfold Erasure.done at done
    split at done
    · rw [todo] at done
      cases statement <;> simp [erasureStatements] at done
    · exact h.erased r mem done statement
  | read e live _ rows _ erasure =>
    refine ⟨rows ▸ h.erased,fun e' live' => ?_⟩
    cases Option.some.inj (erasure.symm.trans live')
    exact h.view e live
  | erased e read r statement rest live known row todo scope rows erasure =>
    refine ⟨rows ▸ h.erased,fun e' live' working mem other done => ?_⟩
    cases Option.some.inj (erasure.symm.trans live')
    rcases Table.mem_put mem with rfl | ⟨there,differ⟩
    · unfold Erasure.done at done
      rw [ErasureStatement.applyId] at done
      simp only [if_pos scope,Function.update_self] at done
      by_cases same : other = statement
      · exact statementNoTrace (.inl same)
      · refine statementNoTrace (.inr (h.view e live r (Table.find_some row).1 other ?_))
        unfold Erasure.done
        rw [if_pos scope,todo]
        exact fun inside => (List.mem_cons.mp inside).elim same done
    · refine h.view e live working there other ?_
      have differ : working.id ≠ r.id := by simpa using differ
      unfold Erasure.done at done ⊢
      simpa only [Function.update_of_ne differ] using done
  | committed e _ live finished rows erasure =>
    refine ⟨fun working mem erased statement => ?_,fun e live => by simp [erasure] at live⟩
    rw [rows] at mem
    refine h.view e live working mem statement ?_
    unfold Erasure.done
    split
    · rename_i scope
      simp [finished _ scope]
    · exact erased
  | aborted rows erasure => exact ⟨rows ▸ h.erased,fun e live => by simp [erasure] at live⟩

theorem closedSound {rows : Table OrderRows OrderRows.id}
    (unerased : ∀ r ∈ rows.rows, r.order.privacyErasedAt = none) (reached : Reachable T rows s) : ClosedSound s := by
  refine reached.invariantWith (I := ClosedSound) (fun r mem reason => ?_) fun s a t before closed _ taken =>
    closedStep closed (erasureSound unerased before) (pendingSound before) (rowsStep taken)
  rcases reason with erased | ⟨e,live,_⟩
  · exact absurd (unerased r mem) erased
  · simp [initial] at live

/-- As long as no trace is inserted for a cleaned order, an erased order has no dispatch
event, edit pause, pickup stop or check-in event. -/
theorem erasedOrderTraceless {rows : Table OrderRows OrderRows.id}
    (unerased : ∀ r ∈ rows.rows, r.order.privacyErasedAt = none)
    (reached : Transition.ReachableUnder (RecordSystem.step T) InsertsNoTrace (initial rows) s) :
    ∀ r ∈ s.rows.rows, r.order.privacyErasedAt ≠ none →
      r.dispatchEvents = [] ∧ r.editPauses = [] ∧ r.pickupStops = [] ∧ r.checkIns = [] := by
  have sound : TracesSound s := by
    refine reached.invariantWith (I := TracesSound) ⟨fun r mem erased => absurd (unerased r mem) erased,
      fun e live => by simp [initial] at live⟩ fun s a t before traces allowed taken => ?_
    have there := before.reachable
    exact traces.step (erasureSound unerased there) (closedSound unerased there) allowed (rowsStep taken)
  intro r mem erased
  have none := sound.erased r mem erased
  exact ⟨none .dispatchEvents,none .editPauses,none .pickupStops,none .checkIns⟩

def placedOrder : OrderRows where
  order := { createdOrder "order" sampleOrder 0 with
    trackingTokenHash := some "hash", trackingTokenExpiresAt := some 500 }
  items := []
  digitalReceipt := none
  helpRequest := none
  dispatchEvents := []
  editPauses := []
  pickupStops := []
  checkIns := []

def placedOrders : Table OrderRows OrderRows.id := ⟨[placedOrder],by decide⟩

theorem placedOrdersUnerased : ∀ r ∈ placedOrders.rows, r.order.privacyErasedAt = none := by
  intro r mem
  rw [List.mem_singleton.mp mem]
  rfl

/-- The order is assigned and delivered; the event of its assignment is not yet recorded. -/
def deliveredRun : List RecordAction :=
  [.decide 0 "order" (.assign ⟨some "driver",none⟩ (some ("staff",.dispatcher))) (some ⟨"driver",true,some 5⟩) false 5,
   .write 0 true 5,.decide 1 "order" (.driverAction (some "driver") .accepted) none false 10,.write 1 true 10,
   .lock 2 "order",.saveReceipt 2 "order" "receipt" "driver" .driver sampleReceipt 20,
   .decide 3 "order" (.driverAction (some "driver") .delivered) none true 30,.write 3 true 30,
   .findCheckInOrder 4 "order" "hash" 60]

theorem idleNotCleaned {s : RecordSystem}
    (idle : (s.erasure.isNone && s.rows.rows.all (·.order.privacyErasedAt = none)) = true) (id : OrderId)
    (statement : ErasureStatement) : ¬ s.Cleaned id statement := by
  simp only [Bool.and_eq_true,Option.isNone_iff_eq_none,List.all_eq_true,decide_eq_true_eq] at idle
  rintro (⟨r,row,erased⟩ | ⟨e,live,_⟩)
  · exact erased (idle.2 r (Table.find_some row).1)
  · rw [idle.1] at live
    cases live

/-- The event and a check-in event come in before the erasure, which deletes them. -/
theorem earlyTracesDeleted : ∃ (s : RecordSystem) (r : OrderRows), r ∈ s.rows.rows ∧
    r.order.privacyErasedAt = some 100 ∧ r.dispatchEvents = [] ∧ r.checkIns = [] := by
  have idle : ∀ actions ∈ [deliveredRun,deliveredRun ++ [.recordEvent 0]],
      (Transition.run (RecordSystem.step sampleText) (initial placedOrders) actions).all (fun s =>
        s.erasure.isNone && s.rows.rows.all (·.order.privacyErasedAt = none)) = true := by decide +kernel
  have allowed : Transition.AllowedRun (RecordSystem.step sampleText) InsertsNoTrace (initial placedOrders)
      (deliveredRun ++ [RecordAction.recordEvent 0] ++ .checkIn 4 "event" .viewed 61::eraseOrderRun) := by
    refine .append (.append ?_ fun s ran => ⟨fun event _ => ?_,fun _ _ => trivial⟩) fun s ran =>
      ⟨fun id _ => ?_,fun _ _ => ?_⟩
    · exact .ofActions (by simp [deliveredRun,InsertsNoTrace])
    · have before := idle deliveredRun (by simp)
      rw [ran] at before
      exact idleNotCleaned before _ _
    · have before := idle (deliveredRun ++ [.recordEvent 0]) (by simp)
      rw [ran] at before
      exact idleNotCleaned before _ _
    · exact .ofActions (by simp [eraseOrderRun,InsertsNoTrace])
  have ends : (Transition.run (RecordSystem.step sampleText) (initial placedOrders)
      (deliveredRun ++ [RecordAction.recordEvent 0] ++ .checkIn 4 "event" .viewed 61::eraseOrderRun)).bind (fun s =>
        (s.rows.find "order").map (·.order.privacyErasedAt)) = some (some 100) := by decide +kernel
  obtain ⟨s,ran,found⟩ := Option.bind_eq_some_iff.mp ends
  obtain ⟨r,row,erased⟩ := Option.map_eq_some_iff.mp found
  obtain ⟨events,_,_,checkIns⟩ := erasedOrderTraceless placedOrdersUnerased
    (Transition.runReachableUnder .start allowed ran) r (Table.find_some row).1 (by simp [erased])
  exact ⟨s,r,(Table.find_some row).1,erased,events,checkIns⟩

/-- Its event, a stop of an unknown edit session and a check-in event come in after the
erasure. -/
def lateTracesRun : List RecordAction :=
  deliveredRun ++ eraseOrderRun ++ [RecordAction.recordEvent 0,.lock 5 "order",
    .updateEditPause 5 ⟨"order","staff","session",.stop⟩ 120,.checkIn 4 "event" .viewed 130]

theorem tracesReappear : ∃ (s : RecordSystem) (r : OrderRows), Reachable sampleText placedOrders s ∧
    r ∈ s.rows.rows ∧ r.order.privacyErasedAt ≠ none ∧ r.dispatchEvents ≠ [] ∧ r.editPauses ≠ [] ∧
    r.checkIns ≠ [] := by
  have ends : (Transition.run (RecordSystem.step sampleText) (initial placedOrders) lateTracesRun).bind (fun s =>
      (s.rows.find "order").map fun r => decide (r.order.privacyErasedAt ≠ none ∧ r.dispatchEvents ≠ [] ∧
        r.editPauses ≠ [] ∧ r.checkIns ≠ [])) = some true := by decide +kernel
  obtain ⟨s,ran,found⟩ := Option.bind_eq_some_iff.mp ends
  obtain ⟨r,row,traces⟩ := Option.map_eq_some_iff.mp found
  exact ⟨s,r,Transition.runReachable .start ran,(Table.find_some row).1,of_decide_eq_true traces⟩

end RecordSystem
end SpeedySweeties
