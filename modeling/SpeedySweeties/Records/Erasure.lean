import SpeedySweeties.Order.Lifecycle
import SpeedySweeties.Records.Steps

/-! What is kept of an order: its row, its items, its receipt and its help request.
While an erasure runs, its view of an order in scope is the committed one until its
first lock, and from then on the committed one with the statements done so far. The
triggers and that lock freeze the record; receipts alone can change between the
erasure's read of them and its lock. -/
namespace SpeedySweeties

structure RetainedRecord where
  order : Order
  items : List OrderItem
  digitalReceipt : Option DigitalReceipt
  helpRequest : Option DeliveryHelpRequest
  deriving DecidableEq, Repr

def OrderRows.retained (r : OrderRows) : RetainedRecord := ⟨r.order,r.items,r.digitalReceipt,r.helpRequest⟩

theorem retainedEq {a b : OrderRows} : a.retained = b.retained ↔
    a.order = b.order ∧ a.items = b.items ∧ a.digitalReceipt = b.digitalReceipt ∧
      a.helpRequest = b.helpRequest := by
  simp [OrderRows.retained]

theorem statementRetained {a b : OrderRows} (same : a.retained = b.retained) (statement : ErasureStatement)
    (now retainUntil : Time) (read : Option DigitalReceipt) :
    (statement.apply now retainUntil read a).retained = (statement.apply now retainUntil read b).retained := by
  obtain ⟨order,items,receipt,help⟩ := retainedEq.mp same
  cases statement with
  | receipts => cases read <;> simp [ErasureStatement.apply,OrderRows.retained,order,items,receipt,help]
  | _ => simp [ErasureStatement.apply,OrderRows.retained,order,items,receipt,help]

theorem writeRetained {a b : OrderRows} (same : a.retained = b.retained) (w : RowWrite) :
    (w.apply a).retained = (w.apply b).retained := by
  obtain ⟨order,items,receipt,help⟩ := retainedEq.mp same
  cases w with
  | checkIn event =>
    simp only [RowWrite.apply]
    split <;> split <;> exact same
  | _ => simp [RowWrite.apply,OrderRows.retained,order,items,receipt,help]

theorem unguardedRetained {w : RowWrite} (unguarded : ¬ w.guarded) (r : OrderRows) :
    (w.apply r).retained = r.retained := by
  cases w with
  | checkIn event =>
    simp only [RowWrite.apply]
    split <;> rfl
  | dispatchEvent | createPause | updatePause | clearPickupStops => rfl
  | _ => simp [RowWrite.guarded] at unguarded

theorem writeErasedAt (w : RowWrite) (r : OrderRows) :
    (w.apply r).order.privacyErasedAt = r.order.privacyErasedAt := by
  cases w with
  | checkIn event =>
    simp only [RowWrite.apply]
    split <;> rfl
  | _ => rfl

/-- The statements done so far, each applied to what the one before it left. -/
def eraseWith (now retainUntil : Time) (read : Option DigitalReceipt) (r : OrderRows)
    (done : List ErasureStatement) : OrderRows :=
  done.foldl (fun rows statement => statement.apply now retainUntil read rows) r

theorem eraseWithRetained {a b : OrderRows} (same : a.retained = b.retained) (now retainUntil : Time)
    (read : Option DigitalReceipt) (done : List ErasureStatement) :
    (eraseWith now retainUntil read a done).retained = (eraseWith now retainUntil read b done).retained := by
  induction done generalizing a b with
  | nil => exact same
  | cons statement rest ih => exact ih (statementRetained same statement now retainUntil read)

theorem eraseWithSnoc (now retainUntil : Time) (read : Option DigitalReceipt) (r : OrderRows)
    (done : List ErasureStatement) (statement : ErasureStatement) :
    eraseWith now retainUntil read r (done ++ [statement]) =
      statement.apply now retainUntil read (eraseWith now retainUntil read r done) := by
  simp [eraseWith]

theorem eraseWithAll (now retainUntil : Time) (read : Option DigitalReceipt) (r : OrderRows) :
    eraseWith now retainUntil read r erasureStatements =
      { eraseRows now retainUntil r with digitalReceipt := match read with
          | none => r.digitalReceipt
          | some read => r.digitalReceipt.map (eraseReceipt read.notes) } := by
  cases read <;> rfl

def Erasure.known (e : Erasure) (id : OrderId) : Option DigitalReceipt := e.read.bind (· id)

/-- The view of an erasure on one order, `held` when it has the lock on its row. -/
structure OrderErasing (e : Erasure) (held : Prop) (r working : OrderRows) : Prop where
  suffix : e.todo r.id <:+ erasureStatements
  outside : r.id ∉ e.ids → working.retained = r.retained
  unerased : r.id ∈ e.ids → r.order.privacyErasedAt = none
  waiting : r.id ∈ e.ids → ¬ held → working.retained = r.retained ∧ .orders ∈ e.todo r.id ∧
    (.items ∈ e.todo r.id ∨ r.items = []) ∧ (.receipts ∈ e.todo r.id ∨ e.known r.id = none)
  begun : r.id ∈ e.ids → held → ∃ done, erasureStatements = done ++ e.todo r.id ∧
    working.retained = (eraseWith e.now e.retainUntil (e.known r.id) r done).retained

theorem idleStatement {statement : ErasureStatement} {rest : List ErasureStatement}
    (suffix : statement::rest <:+ erasureStatements) (orders : .orders ∈ statement::rest) {w : OrderRows}
    {read : Option DigitalReceipt} (items : .items ∈ statement::rest ∨ w.items = [])
    (receipts : .receipts ∈ statement::rest ∨ read = none) (idle : statement.lock read w = none)
    (now retainUntil : Time) :
    (statement.apply now retainUntil read w).retained = w.retained ∧ .orders ∈ rest ∧
      (.items ∈ rest ∨ w.items = []) ∧ (.receipts ∈ rest ∨ read = none) := by
  cases statement with
  | items =>
    have empty : w.items = [] := by simpa [ErasureStatement.lock] using idle
    refine ⟨by simp [ErasureStatement.apply,OrderRows.retained,empty],by simpa using orders,.inr empty,?_⟩
    simpa using receipts
  | receipts =>
    have unread : read = none := by simpa [ErasureStatement.lock] using idle
    subst unread
    exact ⟨rfl,by simpa using orders,by simpa using items,.inr rfl⟩
  | orders => simp [ErasureStatement.lock] at idle
  | helpRequests | checkIns =>
    simp [erasureStatements,List.suffix_cons_iff] at suffix
    simp [suffix] at orders
  | _ => exact ⟨rfl,by simpa using orders,by simpa using items,by simpa using receipts⟩

/-- Until the first lock, the statements done have found nothing to change. -/
theorem idleStatements {done todo : List ErasureStatement} (split : erasureStatements = done ++ todo)
    (orders : .orders ∈ todo) {r : OrderRows} {read : Option DigitalReceipt}
    (items : .items ∈ todo ∨ r.items = []) (receipts : .receipts ∈ todo ∨ read = none)
    (now retainUntil : Time) : (eraseWith now retainUntil read r done).retained = r.retained := by
  have first : done = erasureStatements.take (erasureStatements.length - todo.length) := by
    simp [split]
  have suffix : todo <:+ erasureStatements := ⟨done,split.symm⟩
  simp only [erasureStatements,List.suffix_cons_iff,List.suffix_nil] at suffix
  rcases suffix with rfl | rfl | rfl | rfl | rfl | rfl | rfl | rfl | rfl
  all_goals simp [erasureStatements] at first orders items receipts
  all_goals simp [first,eraseWith,ErasureStatement.apply,OrderRows.retained,items,receipts]

namespace OrderErasing
variable {e : Erasure} {held held' : Prop} {r working : OrderRows}

theorem holdCongr (h : OrderErasing e held r working) (same : held' ↔ held) : OrderErasing e held' r working := by
  rwa [propext same]

theorem seeing (h : OrderErasing e held r working) (rows : Table OrderRows OrderRows.id) :
    OrderErasing { e with working := rows } held r working :=
  ⟨h.suffix,h.outside,h.unerased,h.waiting,h.begun⟩

theorem other {id : OrderId} (h : OrderErasing e held r working) (differ : r.id ≠ id)
    (rest : List ErasureStatement) :
    OrderErasing { e with todo := Function.update e.todo id rest } held r working := by
  have same : Function.update e.todo id rest r.id = e.todo r.id := Function.update_of_ne differ ..
  refine ⟨?_,h.outside,h.unerased,?_,?_⟩ <;> dsimp only <;> rw [same]
  · exact h.suffix
  · exact h.waiting
  · exact h.begun

theorem write {w : RowWrite} (h : OrderErasing e held r working) (unlocked : w.guarded → ¬ held)
    (items : (w.apply r).items = r.items) : OrderErasing e held (w.apply r) (w.apply working) := by
  have id := w.applyId r
  refine ⟨?_,?_,?_,?_,?_⟩ <;> rw [id]
  · exact h.suffix
  · exact fun outside => writeRetained (h.outside outside) w
  · exact fun scope => (writeErasedAt w r).trans (h.unerased scope)
  · intro scope free
    obtain ⟨same,orders,left,receipts⟩ := h.waiting scope free
    exact ⟨writeRetained same w,orders,by rwa [items],receipts⟩
  · intro scope lock
    have unguarded : ¬ w.guarded := fun guarded => unlocked guarded lock
    obtain ⟨done,split,same⟩ := h.begun scope lock
    refine ⟨done,split,?_⟩
    rw [unguardedRetained unguarded,same]
    exact eraseWithRetained (unguardedRetained unguarded r).symm ..

theorem doneSoFar (h : OrderErasing e held r working) (scope : r.id ∈ e.ids) :
    ∃ done, erasureStatements = done ++ e.todo r.id ∧
      working.retained = (eraseWith e.now e.retainUntil (e.known r.id) r done).retained := by
  by_cases before : held
  · exact h.begun scope before
  · obtain ⟨same,orders,items,receipts⟩ := h.waiting scope before
    obtain ⟨done,split⟩ := h.suffix
    exact ⟨done,split.symm,same.trans (idleStatements split.symm orders items receipts ..).symm⟩

theorem erase {read : OrderId → Option DigitalReceipt} {statement : ErasureStatement}
    {rest : List ErasureStatement} (h : OrderErasing e held r working) (known : e.read = some read)
    (todo : e.todo r.id = statement::rest) (scope : r.id ∈ e.ids)
    (lock : held' ↔ held ∨ (statement.lock (read r.id) working).isSome) :
    OrderErasing { e with todo := Function.update e.todo r.id rest } held' r
      (statement.apply e.now e.retainUntil (read r.id) working) := by
  have knows : read r.id = e.known r.id := by simp [Erasure.known,known]
  rw [knows] at lock ⊢
  have steps := h.suffix
  rw [todo] at steps
  refine ⟨?_,fun outside => absurd scope outside,fun _ => h.unerased scope,fun _ free => ?_,fun _ mine => ?_⟩
  · simpa using (List.suffix_cons statement rest).trans steps
  · rw [lock,not_or,Option.not_isSome_iff_eq_none] at free
    obtain ⟨same,orders,items,receipts⟩ := h.waiting scope free.1
    obtain ⟨_,left,_,_⟩ := retainedEq.mp same
    rw [todo] at orders items receipts
    rw [← left] at items
    obtain ⟨still,orders,items,receipts⟩ := idleStatement steps orders items receipts free.2 e.now e.retainUntil
    simp only [Function.update_self]
    exact ⟨still.trans same,orders,left ▸ items,receipts⟩
  · obtain ⟨done,split,same⟩ := h.doneSoFar scope
    simp only [Function.update_self]
    refine ⟨done ++ [statement],by simpa [todo] using split,?_⟩
    rw [eraseWithSnoc]
    exact statementRetained same statement ..

theorem finished (h : OrderErasing e held r working) (scope : r.id ∈ e.ids) (done : e.todo r.id = []) :
    working.retained = (eraseWith e.now e.retainUntil (e.known r.id) r erasureStatements).retained := by
  obtain ⟨statements,split,same⟩ := h.doneSoFar scope
  rw [done,List.append_nil] at split
  rwa [← split] at same

end OrderErasing

namespace RecordSystem
variable {T : TextService} {s t : RecordSystem} {a : RecordAction} {id : OrderId} {r : OrderRows} {w : RowWrite}

theorem findWritten (rows : Table OrderRows OrderRows.id) (id : OrderId) (w : RowWrite) (other : OrderId) :
    (writeRows rows id w).find other = (rows.find other).map (onOrder id w) := Table.find_update ..

theorem memWritten {rows : Table OrderRows OrderRows.id} {x : OrderRows} (row : rows.find r.id = some r)
    (mem : x ∈ (writeRows rows r.id w).rows) : x ∈ rows.rows ∨ x = w.apply r := by
  obtain ⟨old,there,rfl⟩ := List.mem_map.mp mem
  unfold onOrder
  split
  · rename_i here
    have found := Table.find_of_mem there
    rw [show old.id = r.id from here,row] at found
    cases found
    exact .inr rfl
  · exact .inl there

theorem scopeCustomer {rows : Table OrderRows OrderRows.id} {e : Erasure} {customer : CustomerId}
    (scope : e.ids = (rows.rows.filter (·.order.customerId = some customer)).map (·.id)) (mem : r ∈ rows.rows)
    (inside : r.id ∈ e.ids) : r.order.customerId = some customer := by
  rw [scope] at inside
  obtain ⟨own,mine,same⟩ := List.mem_map.mp inside
  obtain ⟨there,linked⟩ := List.mem_filter.mp mine
  have found := Table.find_of_mem there
  rw [same,Table.find_of_mem mem] at found
  cases found
  simpa using linked

theorem WriteSource.unerased (source : WriteSource T s a r w) (guarded : w.guarded) :
    r.order.privacyErasedAt = none := by
  cases source with
  | updated _ updatable => exact updatable.2
  | allocated updatable => exact updatable.2
  | saved _ unerased _ => exact unerased
  | edited _ _ _ _ unerased => exact unerased
  | helped unerased => exact unerased
  | handled unerased => exact unerased
  | paused _ written => exact absurd guarded (by simp [pauseUnguarded written])
  | _ => simp [RowWrite.guarded] at guarded

theorem WriteSource.items (source : WriteSource T s a r w) (live : s.erasure ≠ none) :
    (w.apply r).items = r.items := by
  cases source with
  | edited _ _ _ idle _ => exact absurd idle live
  | checkedIn found =>
    simp only [RowWrite.apply]
    split <;> rfl
  | paused _ written =>
    exact (retainedEq.mp (unguardedRetained (by simp [pauseUnguarded written]) r)).2.1
  | _ => rfl

structure ErasureSound (s : RecordSystem) : Prop where
  idle : s.erasure = none → ∀ id, ¬ s.ErasureHolds id
  erased : ∀ r ∈ s.rows.rows, r.order.privacyErasedAt ≠ none → r.order.customerId = none ∧ r.helpRequest = none
  unread : ∀ e, s.erasure = some e → e.read = none → ∀ id, e.todo id = erasureStatements ∧ ¬ s.ErasureHolds id
  view : ∀ e, s.erasure = some e →
    Table.Related (fun r working => OrderErasing e (s.ErasureHolds r.id) r working) s.rows e.working

theorem initialSound {rows : Table OrderRows OrderRows.id}
    (unerased : ∀ r ∈ rows.rows, r.order.privacyErasedAt = none) : ErasureSound (initial rows) where
  idle := fun _ id ⟨mode,held⟩ => by simp [initial] at held
  erased := fun r mem erased => absurd (unerased r mem) erased
  unread := fun e live => by simp [initial] at live
  view := fun e live => by simp [initial] at live

namespace ErasureSound

theorem aside (h : ErasureSound s) (rows : t.rows = s.rows) (erasure : t.erasure = s.erasure)
    (locks : ∀ id, t.ErasureHolds id ↔ s.ErasureHolds id) : ErasureSound t where
  idle := fun idle id => by
    rw [locks]
    exact h.idle (erasure ▸ idle) id
  erased := rows ▸ h.erased
  unread := fun e live unread id => by
    rw [locks]
    exact h.unread e (erasure ▸ live) unread id
  view := fun e live => by
    rw [rows]
    exact (h.view e (erasure ▸ live)).mono fun _ r _ _ _ view => view.holdCongr (locks r.id)

theorem written (h : ErasureSound s) (row : s.rows.find r.id = some r) (source : WriteSource T s a r w)
    (unlocked : w.guarded → ¬ s.ErasureHolds r.id) (rows : t.rows = writeRows s.rows r.id w)
    (erasure : t.erasure = s.erasure.map fun e => { e with working := writeRows e.working r.id w })
    (locks : ∀ id, t.ErasureHolds id ↔ s.ErasureHolds id) : ErasureSound t where
  idle := fun idle id => by
    rw [locks]
    exact h.idle (by simpa [erasure] using idle) id
  erased := fun written mem erased => by
    rw [rows] at mem
    rcases memWritten row mem with there | rfl
    · exact h.erased _ there erased
    · rw [writeErasedAt] at erased
      have kept := unguardedRetained (fun guarded => erased (source.unerased guarded)) r
      obtain ⟨order,_,_,help⟩ := retainedEq.mp kept
      rw [order,help]
      exact h.erased r (Table.find_some row).1 erased
  unread := fun e' live unread id => by
    obtain ⟨e,old,rfl⟩ := Option.map_eq_some_iff.mp (erasure ▸ live)
    rw [locks]
    exact h.unread e old unread id
  view := fun e' live => by
    obtain ⟨e,old,rfl⟩ := Option.map_eq_some_iff.mp (erasure ▸ live)
    rw [rows]
    refine .update (onOrderId r.id w) (onOrderId r.id w) ((h.view e old).mono fun id x y found seen view => ?_)
    have here : y.id = x.id := (Table.find_key seen).trans (Table.find_key found).symm
    unfold onOrder
    rw [here]
    by_cases same : x.id = r.id
    · rw [if_pos same,if_pos same,RowWrite.applyId]
      obtain rfl := Table.find_key found
      rw [show x.id = r.id from same,row] at found
      cases found
      exact ((view.write unlocked (source.items (by simp [old]))).seeing _).holdCongr (locks _)
    · rw [if_neg same,if_neg same]
      exact (view.seeing _).holdCongr (locks _)

theorem created {row : OrderRows} (h : ErasureSound s) (unerased : row.order.privacyErasedAt = none)
    (rows : t.rows = s.rows.put row) (idle : s.erasure = none) (still : t.erasure = none)
    (locks : ∀ id, t.ErasureHolds id ↔ s.ErasureHolds id) : ErasureSound t where
  idle := fun _ id => by
    rw [locks]
    exact h.idle idle id
  erased := fun r mem erased => by
    rw [rows] at mem
    rcases Table.mem_put mem with rfl | ⟨mem,_⟩
    · exact absurd unerased erased
    · exact h.erased r mem erased
  unread := fun e live => by simp [still] at live
  view := fun e live => by simp [still] at live

theorem started {e : Erasure} {customer : CustomerId} (h : ErasureSound s) (idle : s.erasure = none)
    (rows : t.rows = s.rows) (erasure : t.erasure = some e) (locks : t.locks = s.locks)
    (working : e.working = s.rows) (todo : ∀ id, e.todo id = erasureStatements)
    (scope : e.ids = (s.rows.rows.filter (·.order.customerId = some customer)).map (·.id)) :
    ErasureSound t where
  idle := fun gone => by simp [erasure] at gone
  erased := rows ▸ h.erased
  unread := fun e' live _ id => by
    cases Option.some.inj (erasure.symm.trans live)
    rw [holdsCongr locks]
    exact ⟨todo id,h.idle idle id⟩
  view := fun e' live => by
    cases Option.some.inj (erasure.symm.trans live)
    rw [rows,working]
    refine .self fun r mem => ⟨?_,fun _ => rfl,fun inside => ?_,fun _ _ => ?_,fun _ held => ?_⟩
    · exact todo r.id ▸ List.suffix_rfl
    · have linked := scopeCustomer scope mem inside
      by_contra erased
      simp [(h.erased r mem erased).1] at linked
    · rw [todo]
      simp [erasureStatements]
    · exact absurd ((holdsCongr locks r.id).mp held) (h.idle idle r.id)

theorem read {e : Erasure} (h : ErasureSound s) (live : s.erasure = some e) (unread : e.read = none)
    (rows : t.rows = s.rows) (locks : t.locks = s.locks) {known : OrderId → Option DigitalReceipt}
    (erasure : t.erasure = some { e with read := some known }) : ErasureSound t where
  idle := fun gone => by simp [erasure] at gone
  erased := rows ▸ h.erased
  unread := fun e' live' none => by
    cases Option.some.inj (erasure.symm.trans live')
    cases none
  view := fun e' live' => by
    cases Option.some.inj (erasure.symm.trans live')
    rw [rows]
    refine (h.view e live).mono fun _ r working _ _ view => ?_
    obtain ⟨todo,free⟩ := h.unread e live unread r.id
    refine ⟨view.suffix,view.outside,view.unerased,fun scope _ => ?_,fun _ held => ?_⟩
    · exact ⟨(view.waiting scope free).1,by simp [todo,erasureStatements]⟩
    · exact absurd ((holdsCongr locks r.id).mp held) free

theorem erase {e : Erasure} {known : OrderId → Option DigitalReceipt} {statement : ErasureStatement}
    {rest : List ErasureStatement} (h : ErasureSound s) (live : s.erasure = some e) (read : e.read = some known)
    (row : e.working.find r.id = some r) (todo : e.todo r.id = statement::rest) (scope : r.id ∈ e.ids)
    (rows : t.rows = s.rows) (erasure : t.erasure = some { e with
      todo := Function.update e.todo r.id rest
      working := e.working.put (statement.apply e.now e.retainUntil (known r.id) r) })
    (locks : ∀ id, t.ErasureHolds id ↔ s.ErasureHolds id ∨ id = r.id ∧ (statement.lock (known r.id) r).isSome) :
    ErasureSound t where
  idle := fun gone => by simp [erasure] at gone
  erased := rows ▸ h.erased
  unread := fun e' live' none => by
    cases Option.some.inj (erasure.symm.trans live')
    rw [show _ = e.read from rfl,read] at none
    cases none
  view := fun e' live' => by
    cases Option.some.inj (erasure.symm.trans live')
    rw [rows]
    obtain ⟨x,found,seen⟩ := (h.view e live).flip.found row
    have here : x.id = r.id := Table.find_key found
    refine (h.view e live).put (by simpa using found) ?_ fun id y working differ mine view => ?_
    · rw [← here] at todo scope ⊢
      refine (seen.erase read todo scope ?_).seeing _
      simp [locks,here]
    · have other : y.id ≠ r.id := by
        rw [Table.find_key mine]
        simpa using differ
      exact ((view.other other _).holdCongr (by simp [locks,other])).seeing _

theorem committed {e : Erasure} (h : ErasureSound s) (live : s.erasure = some e)
    (done : ∀ id ∈ e.ids, e.todo id = []) (rows : t.rows = e.working) (erasure : t.erasure = none)
    (locks : ∀ id, ¬ t.ErasureHolds id) : ErasureSound t where
  idle := fun _ => locks
  erased := fun working mem erased => by
    rw [rows] at mem
    obtain ⟨r,found,view⟩ := (h.view e live).flip.found (Table.find_of_mem mem)
    by_cases scope : r.id ∈ e.ids
    · obtain ⟨order,_,_,help⟩ := retainedEq.mp (view.finished scope (done _ scope))
      rw [eraseWithAll] at order help
      rw [order,help]
      exact ⟨rfl,rfl⟩
    · obtain ⟨order,_,_,help⟩ := retainedEq.mp (view.outside scope)
      rw [order] at erased ⊢
      rw [help]
      exact h.erased r (Table.find_some found).1 erased
  unread := fun e live => by simp [erasure] at live
  view := fun e live => by simp [erasure] at live

theorem aborted (h : ErasureSound s) (rows : t.rows = s.rows) (erasure : t.erasure = none)
    (locks : ∀ id, ¬ t.ErasureHolds id) : ErasureSound t where
  idle := fun _ => locks
  erased := rows ▸ h.erased
  unread := fun e live => by simp [erasure] at live
  view := fun e live => by simp [erasure] at live

theorem step (h : ErasureSound s) (move : RowsStep T s a t) : ErasureSound t := by
  cases move with
  | aside rows erasure locks => exact h.aside rows erasure locks
  | written r w row source unlocked rows erasure locks => exact h.written row source unlocked rows erasure locks
  | created id input address location answer items now _ _ rows idle still locks =>
    exact h.created rfl rows idle still locks
  | started e idle rows erasure locks working _ todo customer scope _ =>
    exact h.started idle rows erasure locks working todo scope
  | read e live unread rows locks erasure => exact h.read live unread rows locks erasure
  | erased e read r statement rest live known row todo scope rows erasure locks =>
    exact h.erase live known row todo scope rows erasure locks
  | committed e _ live done rows erasure locks => exact h.committed live done rows erasure locks
  | aborted rows erasure locks => exact h.aborted rows erasure locks

end ErasureSound

theorem erasureSound {rows : Table OrderRows OrderRows.id} (unerased : ∀ r ∈ rows.rows, r.order.privacyErasedAt = none)
    (reached : Reachable T rows s) : ErasureSound s :=
  reached.invariant (initialSound unerased) fun _ _ _ sound taken => sound.step (rowsStep taken)

theorem erasedStep (sound : ErasureSound s) (move : RowsStep T s a t) (row : s.rows.find id = some r)
    (erased : r.order.privacyErasedAt ≠ none) :
    ∃ r', t.rows.find id = some r' ∧ r'.retained = r.retained := by
  cases move with
  | written old w found source _ rows =>
    rw [rows,findWritten,row]
    refine ⟨_,rfl,?_⟩
    unfold onOrder
    split
    · rename_i here
      have key := Table.find_key row
      rw [← key,show r.id = old.id from here,found] at row
      cases row
      exact unguardedRetained (fun guarded => erased (source.unerased guarded)) r
    · rfl
  | created id input address location answer items now fresh _ rows =>
    rw [rows,Table.find_put]
    split
    · rename_i same
      rw [← same] at row
      rw [show OrderRows.id _ = id from rfl,fresh] at row
      cases row
    · exact ⟨r,row,rfl⟩
  | committed e _ live _ rows =>
    obtain ⟨working,found,view⟩ := (sound.view e live).found row
    rw [rows]
    exact ⟨working,found,view.outside fun scope => erased (view.unerased scope)⟩
  | aside rows | started _ _ rows | read _ _ _ rows | erased _ _ _ _ _ _ _ _ _ _ rows | aborted rows =>
    exact ⟨r,rows ▸ row,rfl⟩

theorem erasedRun (sound : ErasureSound s) (later : Transition.Reachable (RecordSystem.step T) s t)
    (row : s.rows.find id = some r) (erased : r.order.privacyErasedAt ≠ none) :
    ∃ r', t.rows.find id = some r' ∧ r'.retained = r.retained := by
  have runs : ErasureSound t ∧ ∃ r', t.rows.find id = some r' ∧ r'.retained = r.retained := by
    refine later.invariant (I := fun t => ErasureSound t ∧ ∃ r', t.rows.find id = some r' ∧ r'.retained = r.retained)
      ⟨sound,r,row,rfl⟩ fun s a t ⟨sound,now,found,same⟩ taken => ?_
    have move := rowsStep taken
    have still : now.order.privacyErasedAt ≠ none := by
      rwa [(retainedEq.mp same).1]
    obtain ⟨next,there,kept⟩ := erasedStep sound move found still
    exact ⟨sound.step move,next,there,kept.trans same⟩
  exact runs.2

/-- Once an erasure has committed, the order row, its items and its receipt stay as they
are, and no help request for the order exists. -/
theorem erasedRecordFrozen {rows : Table OrderRows OrderRows.id}
    (unerased : ∀ r ∈ rows.rows, r.order.privacyErasedAt = none) (reached : Reachable T rows s)
    (row : s.rows.find id = some r) (erased : r.order.privacyErasedAt ≠ none)
    (later : Transition.Reachable (RecordSystem.step T) s t) :
    ∃ r', t.rows.find id = some r' ∧ r'.order = r.order ∧ r'.items = r.items ∧
      r'.digitalReceipt = r.digitalReceipt ∧ r'.helpRequest = none := by
  have sound := erasureSound unerased reached
  obtain ⟨r',found,same⟩ := erasedRun sound later row erased
  obtain ⟨order,items,receipt,help⟩ := retainedEq.mp same
  exact ⟨r',found,order,items,receipt,help.trans (sound.erased r (Table.find_some row).1 erased).2⟩

def closedOrder : OrderRows where
  order := { createdOrder "order" sampleOrder 0 with
    orderStatus := .delivered, assignedDriverId := some "driver", trackingTokenHash := some "hash"
    trackingTokenExpiresAt := some 500 }
  items := [⟨"item",some "fudge","Fudge",1,1200,0⟩]
  digitalReceipt := some ⟨sampleReceipt.toReceiptAmounts,"receipt","SS-7",some "driver",some "Extra stops: 1",none,5⟩
  helpRequest := some ⟨"help","No bag",.open,50,none,none,none⟩
  dispatchEvents := []
  editPauses := []
  pickupStops := []
  checkIns := []

def closedOrders : Table OrderRows OrderRows.id := ⟨[closedOrder],by decide⟩

theorem closedOrdersUnerased : ∀ r ∈ closedOrders.rows, r.order.privacyErasedAt = none := by
  intro r mem
  rw [List.mem_singleton.mp mem]
  rfl

def eraseOrderRun : List RecordAction :=
  [RecordAction.beginErasure "customer" 100 200,.readReceipts] ++ List.replicate 8 (.erase "order") ++ [RecordAction.commitErasure]

/-- A customer whose token was checked before the erasure asks for help after it. -/
def lateHelpRun : List RecordAction := .findCheckInOrder 1 "order" "hash" 60::eraseOrderRun

theorem lateHelpRefused : ∃ s t r r', Reachable sampleText closedOrders s ∧ s.rows.find "order" = some r ∧
    r.order.privacyErasedAt = some 100 ∧ s.step sampleText (.help 1 "late" "Still no bag" 110) = some t ∧
    t.rows.find "order" = some r' ∧ r'.digitalReceipt = r.digitalReceipt ∧ r'.helpRequest = none := by
  have ends : (Transition.run (RecordSystem.step sampleText) (initial closedOrders) lateHelpRun).bind (fun s =>
      (s.rows.find "order").map fun r =>
        (r.order.privacyErasedAt,(s.step sampleText (.help 1 "late" "Still no bag" 110)).isSome)) =
      some (some 100,true) := by decide +kernel
  obtain ⟨s,ran,found⟩ := Option.bind_eq_some_iff.mp ends
  obtain ⟨r,row,same⟩ := Option.map_eq_some_iff.mp found
  obtain ⟨erased,enabled⟩ := Prod.mk.inj same
  obtain ⟨t,taken⟩ := Option.isSome_iff_exists.mp enabled
  have reached : Reachable sampleText closedOrders s := Transition.runReachable .start ran
  obtain ⟨r',there,_,_,receipt,help⟩ := erasedRecordFrozen closedOrdersUnerased reached row (by simp [erased])
    (Transition.Reachable.step .start taken)
  exact ⟨s,t,r,r',reached,row,erased,taken,there,receipt,help⟩

/-! ### The receipts of an erased order -/

def SameCharges (a b : DigitalReceipt) : Prop := receiptChargeEvidence a.notes = receiptChargeEvidence b.notes

/-- A save that is accepted for an order in scope after the erasure has read the receipts
leaves the charges it has read. -/
def SavesReadCharges (s : RecordSystem) : RecordAction → Prop
  | .saveReceipt _ id _ user role body _ => ∀ e read r, s.erasure = some e → e.read = some read → id ∈ e.ids →
      s.rows.find id = some r → (role = .driver → r.order.assignedDriverId = some user) →
      ∃ receipt, read id = some receipt ∧ receiptChargeEvidence receipt.notes = receiptChargeEvidence body.notes
  | _ => True

/-- What an erasure in progress has read of the receipts in its scope still holds, and
erased orders have no receipt notes. -/
structure ReceiptsSound (s : RecordSystem) : Prop where
  current : ∀ e read, s.erasure = some e → e.read = some read → ∀ r ∈ s.rows.rows, r.id ∈ e.ids →
    Option.Rel SameCharges (read r.id) r.digitalReceipt
  cleared : ∀ r ∈ s.rows.rows, r.order.privacyErasedAt ≠ none → ∀ receipt, r.digitalReceipt = some receipt →
    receipt.notes = none ∧ receipt.createdByDriverId = none

theorem sameChargesRefl (receipt : Option DigitalReceipt) : Option.Rel SameCharges receipt receipt := by
  cases receipt with
  | none => exact .none
  | some receipt => exact .some rfl

theorem upsertNotes (receipt : Option DigitalReceipt) (receiptId : String) (order : Order) (user : UserId)
    (body : ReceiptBody) (now : Time) : (upsertReceipt receipt receiptId order user body now).notes = body.notes := by
  cases receipt <;> rfl

theorem WriteSource.receipt (source : WriteSource T s a r w) :
    (w.apply r).digitalReceipt = r.digitalReceipt ∨
      ∃ process receiptId user role body now data, a = .saveReceipt process r.id receiptId user role body now ∧
        w = .receipt (upsertReceipt r.digitalReceipt receiptId r.order user body now) data ∧
        (role = .driver → r.order.assignedDriverId = some user) := by
  cases source with
  | @saved process receiptId user role body now _ data accepted _ _ =>
    exact .inr ⟨process,receiptId,user,role,body,now,data,rfl,rfl,accepted⟩
  | paused _ written =>
    exact .inl (retainedEq.mp (unguardedRetained (by simp [pauseUnguarded written]) r)).2.2.1
  | checkedIn =>
    simp only [RowWrite.apply]
    split <;> exact .inl rfl
  | _ => exact .inl rfl

theorem eraseWithCurrent {now retainUntil : Time} {read : Option DigitalReceipt} {r : OrderRows}
    (current : Option.Rel SameCharges read r.digitalReceipt) :
    eraseWith now retainUntil read r erasureStatements = eraseRows now retainUntil r := by
  rw [eraseWithAll]
  generalize receipt : r.digitalReceipt = stored at current
  cases current with
  | none => simp [eraseRows,receipt]
  | some same =>
    unfold SameCharges at same
    simp [eraseRows,receipt,eraseReceipt,same]

theorem receiptsInitial {rows : Table OrderRows OrderRows.id}
    (unerased : ∀ r ∈ rows.rows, r.order.privacyErasedAt = none) : ReceiptsSound (initial rows) where
  current := fun e _ live => by simp [initial] at live
  cleared := fun r mem erased => absurd (unerased r mem) erased

/-- At its commit an erasure leaves for each order in scope what it makes of the row the
order then has. -/
theorem commitRecord {e : Erasure} (sound : ErasureSound s) (receipts : ReceiptsSound s) (live : s.erasure = some e)
    (done : ∀ id ∈ e.ids, e.todo id = []) (scope : r.id ∈ e.ids) (row : s.rows.find r.id = some r) :
    ∃ r', e.working.find r.id = some r' ∧ r'.retained = (eraseRows e.now e.retainUntil r).retained := by
  obtain ⟨working,found,view⟩ := (sound.view e live).found row
  refine ⟨working,found,?_⟩
  have finished := done _ scope
  cases known : e.read with
  | none =>
    have todo := (sound.unread e live known r.id).1
    simp [finished,erasureStatements] at todo
  | some read =>
    have current := receipts.current e read live known r (Table.find_some row).1 scope
    have knows : e.known r.id = read r.id := by simp [Erasure.known,known]
    rw [view.finished scope finished,knows,eraseWithCurrent current]

theorem ReceiptsSound.step (h : ReceiptsSound s) (sound : ErasureSound s) (allowed : SavesReadCharges s a)
    (move : RowsStep T s a t) : ReceiptsSound t := by
  cases move with
  | aside rows erasure => exact ⟨by rw [rows,erasure]; exact h.current,rows ▸ h.cleared⟩
  | written r w row source _ rows erasure =>
    constructor
    · intro e' read live known written mem scope
      obtain ⟨e,old,rfl⟩ := Option.map_eq_some_iff.mp (erasure ▸ live)
      rw [rows] at mem
      rcases memWritten row mem with there | rfl
      · exact h.current e read old known _ there scope
      · rw [RowWrite.applyId] at scope ⊢
        have current := h.current e read old known r (Table.find_some row).1 scope
        rcases source.receipt with same | ⟨process,receiptId,user,role,body,now,data,rfl,rfl,accepted⟩
        · rwa [same]
        · obtain ⟨receipt,known,charges⟩ := allowed e read r old known scope row accepted
          rw [known]
          exact .some (charges.trans (congrArg receiptChargeEvidence (upsertNotes ..).symm))
    · intro written mem erased
      rw [rows] at mem
      rcases memWritten row mem with there | rfl
      · exact h.cleared _ there erased
      · rw [writeErasedAt] at erased
        have kept := unguardedRetained (fun guarded => erased (source.unerased guarded)) r
        rw [(retainedEq.mp kept).2.2.1]
        exact h.cleared r (Table.find_some row).1 erased
  | created id input address location answer items now _ _ rows _ still =>
    refine ⟨fun e _ live => by simp [still] at live,fun r mem erased => ?_⟩
    rw [rows] at mem
    rcases Table.mem_put mem with rfl | ⟨mem,_⟩
    · exact absurd rfl erased
    · exact h.cleared r mem erased
  | started e _ rows erasure _ _ unread =>
    refine ⟨fun e' _ live known => ?_,rows ▸ h.cleared⟩
    cases Option.some.inj (erasure.symm.trans live)
    rw [unread] at known
    cases known
  | read e live unread rows _ erasure =>
    refine ⟨fun e' _ live' known r mem scope => ?_,rows ▸ h.cleared⟩
    cases Option.some.inj (erasure.symm.trans live')
    cases known
    rw [rows] at mem
    obtain ⟨working,found,view⟩ := (sound.view e live).found (Table.find_of_mem mem)
    have same := (view.waiting scope (sound.unread e live unread r.id).2).1
    simp only [found,Option.bind_some]
    rw [(retainedEq.mp same).2.2.1]
    exact sameChargesRefl _
  | erased e read r statement rest live known _ _ _ rows erasure =>
    refine ⟨fun e' _ live' known' x mem scope => ?_,rows ▸ h.cleared⟩
    cases Option.some.inj (erasure.symm.trans live')
    rw [rows] at mem
    exact h.current e _ live known' x mem scope
  | committed e _ live done rows erasure =>
    refine ⟨fun e _ live => by simp [erasure] at live,fun working mem erased => ?_⟩
    rw [rows] at mem
    obtain ⟨r,found,view⟩ := (sound.view e live).flip.found (Table.find_of_mem mem)
    have key := Table.find_key found
    by_cases scope : r.id ∈ e.ids
    · obtain ⟨left,there,same⟩ := commitRecord sound h live done scope (Table.find_self found)
      rw [key,Table.find_of_mem mem] at there
      cases there
      rw [(retainedEq.mp same).2.2.1]
      intro receipt stored
      obtain ⟨old,_,rfl⟩ := Option.map_eq_some_iff.mp stored
      exact ⟨rfl,rfl⟩
    · obtain ⟨order,_,receipt,_⟩ := retainedEq.mp (view.outside scope)
      rw [order] at erased
      rw [receipt]
      exact h.cleared r (Table.find_some found).1 erased
  | aborted rows erasure => exact ⟨fun e _ live => by simp [erasure] at live,rows ▸ h.cleared⟩

/-- As long as no save changes the charges after the erasure has read them, an erasure
leaves of each order what it makes of the rows as they are at that moment. -/
theorem erasureComplete {rows : Table OrderRows OrderRows.id}
    (unerased : ∀ r ∈ rows.rows, r.order.privacyErasedAt = none)
    (reached : Transition.ReachableUnder (RecordSystem.step T) SavesReadCharges (initial rows) s) :
    (∀ e t, s.erasure = some e → s.step T .commitErasure = some t → ∀ id ∈ e.ids, ∀ r, s.rows.find id = some r →
      ∃ r', t.rows.find id = some r' ∧ r'.retained = (eraseRows e.now e.retainUntil r).retained) ∧
    ∀ r ∈ s.rows.rows, r.order.privacyErasedAt ≠ none → ∀ receipt, r.digitalReceipt = some receipt →
      receipt.notes = none ∧ receipt.createdByDriverId = none := by
  have sound := erasureSound unerased reached.reachable
  have receipts : ReceiptsSound s := reached.invariantWith (receiptsInitial unerased)
    fun s a t before h allowed taken => h.step (erasureSound unerased before.reachable) allowed (rowsStep taken)
  refine ⟨fun e t live taken id scope r row => ?_,receipts.cleared⟩
  obtain rfl := Table.find_key row
  simp only [RecordSystem.step,bind,Option.bind_eq_some_iff] at taken
  obtain ⟨_,found,taken⟩ := taken
  cases Option.some.inj (live.symm.trans found)
  split at taken <;> try contradiction
  rename_i done
  cases Option.some.inj taken
  exact commitRecord sound receipts live (by simpa using done) scope row

def beginReadRun : List RecordAction := [.beginErasure "customer" 100 200,.readReceipts]

/-- A dispatcher saves between the erasure's read and its lock, with the same charges. -/
def sameChargesRun : List RecordAction :=
  .saveReceipt 2 "order" "receipt" "staff" .dispatcher sampleReceipt 101::List.replicate 8 (.erase "order")

theorem sameChargesErased : ∃ (s t : RecordSystem) (r r' : OrderRows), s.rows.find "order" = some r ∧
    s.step sampleText .commitErasure = some t ∧ t.rows.find "order" = some r' ∧
    r'.retained = (eraseRows 100 200 r).retained := by
  have reads : (Transition.run (RecordSystem.step sampleText) (initial closedOrders) beginReadRun).bind (fun s =>
      s.erasure.bind fun e => e.read.map fun read => read "order") = some closedOrder.digitalReceipt := by
    decide +kernel
  have allowed : Transition.AllowedRun (RecordSystem.step sampleText) SavesReadCharges (initial closedOrders)
      (beginReadRun ++ sameChargesRun) := by
    refine .append ⟨trivial,fun _ _ => ⟨trivial,fun _ _ => trivial⟩⟩ fun s ran => ⟨?_,fun t _ => ?_⟩
    · intro e read r live known _ _ _
      simp only [ran,live,known,Option.bind_some,Option.map_some,Option.some.injEq] at reads
      exact ⟨_,reads,rfl⟩
    · refine .ofActions fun a mem s => ?_
      rw [List.eq_of_mem_replicate mem]
      trivial
  have ends : (Transition.run (RecordSystem.step sampleText) (initial closedOrders)
      (beginReadRun ++ sameChargesRun)).bind (fun s => s.erasure.bind fun e => (s.rows.find "order").map fun r =>
        ((s.step sampleText .commitErasure).isSome,e.ids,e.now,e.retainUntil)) =
      some (true,["order"],100,200) := by decide +kernel
  obtain ⟨s,ran,found⟩ := Option.bind_eq_some_iff.mp ends
  obtain ⟨e,live,found⟩ := Option.bind_eq_some_iff.mp found
  obtain ⟨r,row,same⟩ := Option.map_eq_some_iff.mp found
  simp only [Prod.mk.injEq] at same
  obtain ⟨enabled,scope,now,last⟩ := same
  obtain ⟨t,taken⟩ := Option.isSome_iff_exists.mp enabled
  obtain ⟨r',there,record⟩ := (erasureComplete closedOrdersUnerased
    (Transition.runReachableUnder .start allowed ran)).1 e t live taken "order" (by simp [scope]) r row
  rw [now,last] at record
  exact ⟨s,t,r,r',row,taken,there,record⟩

/-- The driver corrects the number of stops between the erasure's read and its lock. -/
def correctedReceiptRun : List RecordAction :=
  beginReadRun ++ [RecordAction.lock 2 "order",
    .saveReceipt 2 "order" "receipt" "driver" .driver { sampleReceipt with notes := some "Extra stops: 3" } 101] ++
  List.replicate 8 (.erase "order")

theorem erasureKeepsOldCharges : ∃ (s t : RecordSystem) (e : Erasure) (r r' : OrderRows),
    Reachable sampleText closedOrders s ∧ s.erasure = some e ∧ "order" ∈ e.ids ∧
    s.rows.find "order" = some r ∧ s.step sampleText .commitErasure = some t ∧
    t.rows.find "order" = some r' ∧ r'.retained ≠ (eraseRows e.now e.retainUntil r).retained ∧
    r.digitalReceipt.bind (receiptChargeEvidence ·.notes) = some ⟨some (.finite 3),none,none⟩ ∧
    r'.digitalReceipt.bind (·.retainedChargeEvidence) = some ⟨some (.finite 1),none,none⟩ := by
  have ends : (Transition.run (RecordSystem.step sampleText) (initial closedOrders) correctedReceiptRun).bind
      (fun s => s.erasure.bind fun e => (s.rows.find "order").bind fun r =>
        (s.step sampleText .commitErasure).bind fun t => (t.rows.find "order").map fun r' =>
          (decide ("order" ∈ e.ids ∧ r'.retained ≠ (eraseRows e.now e.retainUntil r).retained),
            r.digitalReceipt.bind (receiptChargeEvidence ·.notes),
            r'.digitalReceipt.bind (·.retainedChargeEvidence))) =
      some (true,some ⟨some (.finite 3),none,none⟩,some ⟨some (.finite 1),none,none⟩) := by decide +kernel
  obtain ⟨s,ran,found⟩ := Option.bind_eq_some_iff.mp ends
  obtain ⟨e,live,found⟩ := Option.bind_eq_some_iff.mp found
  obtain ⟨r,row,found⟩ := Option.bind_eq_some_iff.mp found
  obtain ⟨t,taken,found⟩ := Option.bind_eq_some_iff.mp found
  obtain ⟨r',there,same⟩ := Option.map_eq_some_iff.mp found
  simp only [Prod.mk.injEq,decide_eq_true_eq] at same
  obtain ⟨⟨scope,differ⟩,charges,old⟩ := same
  exact ⟨s,t,e,r,r',Transition.runReachable .start ran,live,scope,row,taken,there,differ,charges,old⟩

end RecordSystem
end SpeedySweeties
