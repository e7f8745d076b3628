import SpeedySweeties.Library.IntervalUnion
import SpeedySweeties.Library.Table
import SpeedySweeties.Library.Transition
import SpeedySweeties.Schema

/-! Edit pauses: a server-side lease for each editing session of an order, and the time it
takes off the order's waiting. One call is one transaction under the order's row lock; a
refused call changes nothing. Each call brings its own clock reading, in milliseconds. -/
namespace SpeedySweeties

def editPauseLeaseMs : Nat := 45000

structure EditPauseSession where
  id : String
  orderId : OrderId
  actorUserId : UserId
  startedAt : Nat
  expiresAt : Nat
  endedAt : Option Nat := none
  deriving DecidableEq, Repr

/-- What is selected of the order; `assignedAt` is its first `ASSIGNED` event. -/
structure EditedOrder where
  orderStatus : OrderStatus
  dispatchedAt : Option Nat
  assignedAt : Option Nat
  deriving DecidableEq, Repr

def EditedOrder.firstDispatchedAt (order : EditedOrder) : Option Nat := order.assignedAt <|> order.dispatchedAt

def EditedOrder.eligible (order : EditedOrder) : Bool :=
  order.orderStatus = .placed && order.firstDispatchedAt.isNone

inductive EditPauseAction where | start | heartbeat | stop deriving DecidableEq, Repr

structure EditPauseInput where
  orderId : OrderId
  actorUserId : UserId
  sessionId : String
  action : EditPauseAction
  deriving DecidableEq, Repr

structure EditPauseFailure where
  status : Nat
  message : String
  deriving DecidableEq, Repr

abbrev EditPauses := Table EditPauseSession EditPauseSession.id

structure EditTiming where
  orderId : OrderId
  orderStatus : OrderStatus
  dispatchedAt : Option Nat
  firstDispatchedAt : Option Nat
  dispatchEditPauses : List EditPauseSession
  paused : Bool
  serverNow : Nat
  deriving DecidableEq, Repr

namespace EditPause

def closed (session : EditPauseSession) (now : Nat) : EditPauseSession :=
  { session with endedAt := some (max session.startedAt (min now session.expiresAt)) }

/-- A stop that has come before its start. -/
def tombstone (input : EditPauseInput) (now : Nat) : EditPauseSession :=
  ⟨input.sessionId,input.orderId,input.actorUserId,now,now,some now⟩

def started (input : EditPauseInput) (now : Nat) : EditPauseSession :=
  ⟨input.sessionId,input.orderId,input.actorUserId,now,now + editPauseLeaseMs,none⟩

def renewed (session : EditPauseSession) (now : Nat) : EditPauseSession :=
  { session with expiresAt := max session.expiresAt (now + editPauseLeaseMs) }

/-- The session's row after the call. -/
def nextSession (input : EditPauseInput) (eligible : Bool) (session : Option EditPauseSession) (now : Nat) :
    Except EditPauseFailure (Option EditPauseSession) :=
  if input.action = .stop ∨ !eligible then
    match session with
    | some session => .ok (some (if session.endedAt.isNone then closed session now else session))
    | none => .ok (if input.action = .stop then some (tombstone input now) else none)
  else
    match session with
    | none =>
      if input.action ≠ .start then .error ⟨409,"Start a new edit pause session"⟩
      else .ok (some (started input now))
    | some session =>
      if session.endedAt.isNone ∧ now < session.expiresAt then .ok (some (renewed session now))
      else if session.endedAt.isNone ∨ input.action = .heartbeat then .error ⟨409,"Edit pause expired; start a new session"⟩
      else .ok (some session)

def timing (input : EditPauseInput) (order : EditedOrder) (pauses : EditPauses) (session : Option EditPauseSession) (now : Nat) :
    EditTiming where
  orderId := input.orderId
  orderStatus := order.orderStatus
  dispatchedAt := order.dispatchedAt
  firstDispatchedAt := order.firstDispatchedAt
  dispatchEditPauses := (pauses.rows.filter fun p => p.orderId = input.orderId).insertionSort fun a b => a.startedAt ≤ b.startedAt
  paused := order.eligible && session.any fun p => p.endedAt.isNone && now < p.expiresAt
  serverNow := now

def updateOrderEditPause (orders : OrderId → Option EditedOrder) (pauses : EditPauses) (input : EditPauseInput) (now : Nat) :
    Except EditPauseFailure (EditPauses × EditTiming) :=
  match orders input.orderId with
  | none => .error ⟨404,"Order not found"⟩
  | some order =>
    let session := pauses.find input.sessionId
    if session.any fun p => p.orderId ≠ input.orderId ∨ p.actorUserId ≠ input.actorUserId then
      .error ⟨403,"This edit session belongs to another editor"⟩
    else do
      let session ← nextSession input order.eligible session now
      let pauses := (session.map pauses.put).getD pauses
      pure (pauses,timing input order pauses session now)

end EditPause

/-! ### Credit -/

def EditPauseSession.range (p : EditPauseSession) (lower upper : Nat) : IntervalUnion.Range :=
  (max lower p.startedAt,min upper (min p.expiresAt (p.endedAt.getD upper)))

def editPauseMilliseconds (pauses : List EditPauseSession) (lower upper : Nat) : Nat :=
  if upper ≤ lower then 0
  else IntervalUnion.sweep lower
    (((pauses.map (·.range lower upper)).filter fun r => r.1 < r.2).insertionSort fun r s => r.1 ≤ s.1)

def dispatchWaitingMilliseconds (start end_ : Nat) (pauses : List EditPauseSession) : Nat :=
  end_ - start - editPauseMilliseconds pauses start end_

/-- The millisecond that begins at `x` counts as paused. -/
def EditPauseSession.Credits (p : EditPauseSession) (x : Nat) : Prop :=
  p.startedAt ≤ x ∧ x < p.expiresAt ∧ ∀ at_, p.endedAt = some at_ → x < at_

theorem creditedRange {p : EditPauseSession} {lower upper x : Nat} (inside : lower ≤ x ∧ x < upper) :
    IntervalUnion.Within x (p.range lower upper) ↔ p.Credits x := by
  unfold IntervalUnion.Within EditPauseSession.range EditPauseSession.Credits
  cases p.endedAt with
  | none => simp; omega
  | some at_ => simp; omega

theorem editPauseCredited (pauses : List EditPauseSession) (lower upper : Nat) : ∃ credited : Finset Nat,
    editPauseMilliseconds pauses lower upper = credited.card ∧
      ∀ x, x ∈ credited ↔ lower ≤ x ∧ x < upper ∧ ∃ p ∈ pauses, p.Credits x := by
  unfold editPauseMilliseconds
  split
  · exact ⟨∅,rfl,fun x => by simp; omega⟩
  refine ⟨_,IntervalUnion.sweepUnion ?_,fun x => ?_⟩
  · exact List.pairwise_insertionSort _ _
  rw [IntervalUnion.mem_union]
  simp only [List.mem_insertionSort,List.mem_filter,List.mem_map,decide_eq_true_eq]
  constructor
  · rintro ⟨from_,r,⟨⟨p,mem,rfl⟩,_⟩,within⟩
    have before : x < upper := by
      have := within.2
      simp only [EditPauseSession.range] at this
      omega
    exact ⟨from_,before,p,mem,(creditedRange ⟨from_,before⟩).mp within⟩
  · rintro ⟨from_,before,p,mem,credits⟩
    have within := (creditedRange ⟨from_,before⟩).mpr credits
    exact ⟨from_,_,⟨⟨p,mem,rfl⟩,Nat.lt_of_le_of_lt within.1 within.2⟩,within⟩

/-! ### Runs -/

structure EditPauseSystem where
  orders : OrderId → Option EditedOrder
  pauses : EditPauses
  /-- Every start and heartbeat that was answered as pausing, with the clock reading of its call. -/
  accepted : List (String × Nat)

inductive EditPauseEvent where
  | changeOrder (id : OrderId) (order : EditedOrder)
  | call (input : EditPauseInput) (now : Nat)

namespace EditPauseSystem
open EditPause

def initial (orders : OrderId → Option EditedOrder) : EditPauseSystem := ⟨orders,.empty,[]⟩

def step (s : EditPauseSystem) : EditPauseEvent → EditPauseSystem
  | .changeOrder id order => { s with orders := Function.update s.orders id (some order) }
  | .call input now =>
    match updateOrderEditPause s.orders s.pauses input now with
    | .error _ => s
    | .ok (pauses,answer) =>
      { s with pauses, accepted := if answer.paused then (input.sessionId,now)::s.accepted else s.accepted }

def after (s : EditPauseSystem) (events : List EditPauseEvent) : EditPauseSystem := events.foldl step s

/-- What a call makes of its session's row. -/
inductive Move (input : EditPauseInput) (now : Nat) (eligible : Bool) : Option EditPauseSession → Option EditPauseSession → Prop where
  | absent : Move input now eligible none none
  | tombstone : Move input now eligible none (some (tombstone input now))
  | started (open_ : eligible = true) : Move input now eligible none (some (started input now))
  | kept {p} (ended : p.endedAt ≠ none) : Move input now eligible (some p) (some p)
  | closed {p} (active : p.endedAt = none) : Move input now eligible (some p) (some (closed p now))
  | renewed {p} (open_ : eligible = true) (active : p.endedAt = none) (live : now < p.expiresAt) :
      Move input now eligible (some p) (some (renewed p now))

variable {input : EditPauseInput} {now : Nat} {eligible : Bool} {before after_ : Option EditPauseSession}

theorem nextSessionSource (ok : nextSession input eligible before now = .ok after_) : Move input now eligible before after_ := by
  unfold nextSession at ok
  split at ok
  · cases before with
    | none =>
      cases ok
      split
      · exact .tombstone
      · exact .absent
    | some p =>
      cases ok
      split
      · rename_i active
        exact .closed (by simpa using active)
      · rename_i ended
        exact .kept (by simpa using ended)
  rename_i open_
  have open_ : eligible = true := by
    have := (not_or.mp open_).2
    simpa using this
  cases before with
  | none =>
    dsimp only at ok
    split at ok <;> cases ok
    exact .started open_
  | some p =>
    dsimp only at ok
    split at ok
    · rename_i live
      cases ok
      exact .renewed open_ (by simpa using live.1) live.2
    · split at ok <;> cases ok
      rename_i ended
      exact .kept (by simpa using (not_or.mp ended).1)

structure PauseSound (accepted : List (String × Nat)) (p : EditPauseSession) : Prop where
  ordered : p.startedAt ≤ p.expiresAt
  ended : ∀ at_, p.endedAt = some at_ → p.startedAt ≤ at_ ∧ at_ ≤ p.expiresAt
  leased : ∀ x, p.startedAt ≤ x → x < p.expiresAt → ∃ at_, (p.id,at_) ∈ accepted ∧ at_ ≤ x ∧ x < at_ + editPauseLeaseMs

/-- A row and the same row later. -/
structure Continued (p q : EditPauseSession) : Prop where
  id : q.id = p.id
  expires : p.expiresAt ≤ q.expiresAt
  ended : p.endedAt ≠ none → q = p

theorem Continued.refl (p : EditPauseSession) : Continued p p := ⟨rfl,Nat.le_refl _,fun _ => rfl⟩

theorem Continued.trans {p q r : EditPauseSession} (h : Continued p q) (later : Continued q r) : Continued p r where
  id := later.id.trans h.id
  expires := Nat.le_trans h.expires later.expires
  ended closed := by
    obtain rfl := h.ended closed
    exact later.ended closed

theorem PauseSound.mono {accepted more : List (String × Nat)} {p : EditPauseSession} (h : PauseSound accepted p)
    (grown : accepted ⊆ more) : PauseSound more p where
  ordered := h.ordered
  ended := h.ended
  leased x from_ before := by
    obtain ⟨at_,mem,within⟩ := h.leased x from_ before
    exact ⟨at_,grown mem,within⟩

/-- The row that a call leaves is sound when its pausing answers are on record. -/
theorem Move.sound {accepted : List (String × Nat)} {p : EditPauseSession} (moved : Move input now eligible before (some p))
    (known : ∀ q, before = some q → q.id = input.sessionId ∧ PauseSound accepted q)
    (recorded : (eligible = true ∧ p.endedAt = none ∧ now < p.expiresAt) → (input.sessionId,now) ∈ accepted) :
    PauseSound accepted p := by
  cases moved with
  | tombstone =>
    refine ⟨Nat.le_refl _,fun at_ is => ?_,fun x from_ before => absurd before (Nat.not_lt.mpr from_)⟩
    cases Option.some.inj is
    exact ⟨Nat.le_refl _,Nat.le_refl _⟩
  | started open_ =>
    have lease : now < now + editPauseLeaseMs := by simp [editPauseLeaseMs]
    refine ⟨Nat.le_of_lt lease,nofun,fun x from_ before => ⟨now,recorded ⟨open_,rfl,lease⟩,from_,before⟩⟩
  | kept ended => exact (known p rfl).2
  | @closed q active =>
    obtain ⟨_,sound⟩ := known q rfl
    refine ⟨sound.ordered,fun at_ is => ?_,sound.leased⟩
    cases Option.some.inj is
    exact ⟨Nat.le_max_left _ _,Nat.max_le.mpr ⟨sound.ordered,Nat.min_le_right _ _⟩⟩
  | @renewed q open_ active live =>
    obtain ⟨id,sound⟩ := known q rfl
    refine ⟨Nat.le_trans sound.ordered (Nat.le_max_left _ _),fun at_ is => ?_,fun x from_ before => ?_⟩
    · rw [show (EditPause.renewed q now).endedAt = q.endedAt from rfl,active] at is
      cases is
    by_cases old : x < q.expiresAt
    · exact sound.leased x from_ old
    · -- Past the old lease there is only what this call has added.
      have mine : (q.id,now) ∈ accepted := id ▸ recorded ⟨open_,active,Nat.lt_of_lt_of_le live (Nat.le_max_left _ _)⟩
      simp only [EditPause.renewed] at before
      exact ⟨now,mine,by omega,by omega⟩

theorem Move.continued {p : EditPauseSession} (moved : Move input now eligible (some p) after_) : ∃ q, after_ = some q ∧ Continued p q := by
  cases moved with
  | kept _ => exact ⟨p,rfl,.refl p⟩
  | closed active => exact ⟨_,rfl,rfl,Nat.le_refl _,fun ended => absurd active ended⟩
  | renewed _ active _ => exact ⟨_,rfl,rfl,Nat.le_max_left _ _,fun ended => absurd active ended⟩

theorem Move.key {p : EditPauseSession} (moved : Move input now eligible before (some p))
    (known : ∀ q, before = some q → q.id = input.sessionId) : p.id = input.sessionId := by
  cases before with
  | none => cases moved <;> rfl
  | some q =>
    have id := known q rfl
    cases moved <;> exact id

theorem updateSource {orders : OrderId → Option EditedOrder} {pauses later : EditPauses} {answer : EditTiming}
    (ok : updateOrderEditPause orders pauses input now = .ok (later,answer)) : ∃ eligible after_,
      Move input now eligible (pauses.find input.sessionId) after_ ∧ later = (after_.map pauses.put).getD pauses ∧
        ((∃ p, after_ = some p ∧ eligible = true ∧ p.endedAt = none ∧ now < p.expiresAt) → answer.paused = true) := by
  unfold updateOrderEditPause at ok
  split at ok
  · cases ok
  rename_i order _
  dsimp only at ok
  split at ok
  · cases ok
  cases moved : nextSession input order.eligible (pauses.find input.sessionId) now with
  | error failure => simp [moved,bind,Except.bind] at ok
  | ok after_ =>
    simp only [moved,bind,Except.bind,pure,Except.pure,Except.ok.injEq,Prod.mk.injEq] at ok
    obtain ⟨rfl,rfl⟩ := ok
    refine ⟨order.eligible,after_,nextSessionSource moved,rfl,?_⟩
    rintro ⟨p,rfl,open_,active,live⟩
    simp [timing,open_,active,live]

structure Sound (s : EditPauseSystem) : Prop where
  pauses : ∀ p ∈ s.pauses.rows, PauseSound s.accepted p

theorem Sound.step {s : EditPauseSystem} (h : Sound s) (e : EditPauseEvent) :
    Sound (s.step e) ∧ ∀ p ∈ s.pauses.rows, ∃ q ∈ (s.step e).pauses.rows, Continued p q := by
  cases e with
  | changeOrder id order => exact ⟨⟨h.pauses⟩,fun p mem => ⟨p,mem,.refl p⟩⟩
  | call input now =>
    dsimp only [EditPauseSystem.step]
    split
    · exact ⟨h,fun p mem => ⟨p,mem,.refl p⟩⟩
    rename_i later answer ok
    obtain ⟨eligible,after_,moved,rfl,answered⟩ := updateSource ok
    have grown : s.accepted ⊆ if answer.paused then (input.sessionId,now)::s.accepted else s.accepted := by
      split
      · exact List.subset_cons_self _ _
      · exact List.Subset.refl _
    cases after_ with
    | none => exact ⟨⟨fun p mem => (h.pauses p mem).mono grown⟩,fun p mem => ⟨p,mem,.refl p⟩⟩
    | some row =>
      have key := moved.key fun q found => Table.find_key found
      have sound : PauseSound (if answer.paused then (input.sessionId,now)::s.accepted else s.accepted) row := by
        refine moved.sound (fun q found => ?_) fun live => ?_
        · exact ⟨Table.find_key found,(h.pauses q (Table.find_some found).1).mono grown⟩
        · rw [if_pos (answered ⟨row,rfl,live⟩)]
          exact List.mem_cons_self
      refine ⟨⟨fun p mem => ?_⟩,fun p mem => ?_⟩
      · rcases Table.mem_put mem with rfl | ⟨old,_⟩
        · exact sound
        · exact (h.pauses p old).mono grown
      · have found := Table.find_of_mem mem
        by_cases mine : p.id = input.sessionId
        · rw [mine] at found
          rw [found] at moved
          obtain ⟨q,same,continued⟩ := moved.continued
          cases Option.some.inj same
          exact ⟨row,Table.mem_iff_find.mpr (Table.find_put_self _ _),continued⟩
        · refine ⟨p,Table.mem_iff_find.mpr ?_,.refl p⟩
          exact (Table.find_put_other fun same => mine (same.trans key)).trans found

theorem Sound.after {s : EditPauseSystem} (h : Sound s) (events : List EditPauseEvent) :
    Sound (s.after events) ∧ ∀ p ∈ s.pauses.rows, ∃ q ∈ (s.after events).pauses.rows, Continued p q := by
  induction events generalizing s with
  | nil => exact ⟨h,fun p mem => ⟨p,mem,.refl p⟩⟩
  | cons e events ih =>
    obtain ⟨next,kept⟩ := h.step e
    obtain ⟨last,later⟩ := ih next
    refine ⟨last,fun p mem => ?_⟩
    obtain ⟨q,there,continued⟩ := kept p mem
    obtain ⟨r,then_,still⟩ := later q there
    exact ⟨r,then_,continued.trans still⟩

end EditPauseSystem
end SpeedySweeties
