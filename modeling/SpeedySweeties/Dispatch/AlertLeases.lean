import SpeedySweeties.Dispatch.UndispatchedAlerts

/-! Where no two claims of an order carry the same time, the time of a claim names its
holder, and the lease is exclusive. Two claims of one millisecond are two holders of one
name: the one that was taken over acts on the other's claim. -/
namespace SpeedySweeties
namespace Alerts

/-- The events of the log, one before the other. -/
def Follows (later earlier : Event) (log : List Event) : Prop := ∃ newer older, log = newer ++ later::older ∧ earlier ∈ older

theorem Follows.cons {later earlier e : Event} {log : List Event} (h : Follows later earlier log) : Follows later earlier (e::log) := by
  obtain ⟨newer,older,rfl,mem⟩ := h
  exact ⟨e::newer,older,rfl,mem⟩

theorem Follows.head {later earlier : Event} {log : List Event} (mem : earlier ∈ log) : Follows later earlier (later::log) :=
  ⟨[],log,rfl,mem⟩

theorem Follows.later {later earlier : Event} {log : List Event} (h : Follows later earlier log) : later ∈ log := by
  obtain ⟨newer,older,rfl,_⟩ := h
  simp

def Event.concludes (id : OrderId) : Event → Bool
  | .marked lease _ => lease.id = id
  | _ => false

def Event.opens (id : OrderId) : Event → Bool
  | .claimed lease _ | .marked lease _ => lease.id = id
  | _ => false

structure Safe (log : List Event) : Prop where
  exclusive : ∀ newer (later : Lease) after_ between (lease : Lease) at_ older,
    log = newer ++ .claimed later after_::(between ++ .claimed lease at_::older) → later.id = lease.id →
      .released lease (some lease.number) ∈ between ∨ lease.claimTime + leaseMs ≤ after_
  own : ∀ (lease : Lease) held, .released lease held ∈ log ∨ .marked lease held ∈ log → held = some lease.number
  once : log.Pairwise fun later earlier => ∀ id, earlier.concludes id → later.opens id = false
  due : ∀ lease o minutes, .alerted lease o minutes ∈ log → ∃ order, Follows (.alerted lease o minutes) (.read lease order) log ∧
    (∃ at_, Follows (.read lease order) (.claimed lease at_) log) ∧ order.orderStatus = .placed ∧ order.dispatchedAt = none ∧
      AlertOptions.alertAfterMs o ≤ waitingMs order o.now

/-- Neither a claim nor a release nor a mark. -/
def Event.quiet : Event → Prop
  | .read _ _ | .alerted _ _ _ => True
  | _ => False

theorem splitCons {e x : Event} {log newer older : List Event} (h : e::log = newer ++ x::older) :
    (newer = [] ∧ e = x ∧ log = older) ∨ ∃ rest, newer = e::rest ∧ log = rest ++ x::older := by
  cases newer with
  | nil => exact .inl ⟨rfl,List.cons.inj h⟩
  | cons first rest =>
    obtain ⟨rfl,same⟩ := List.cons.inj h
    exact .inr ⟨rest,rfl,same⟩

theorem dueSource {o : AlertOptions} {order : AlertOrder} (h : due o order = true) :
    order.orderStatus = .placed ∧ order.dispatchedAt = none ∧ AlertOptions.alertAfterMs o ≤ waitingMs order o.now := by
  simpa [due,undispatched,and_assoc] using h

theorem Safe.quiet {log : List Event} {e : Event} (h : Safe log) (quiet : e.quiet)
    (alert : ∀ lease o minutes, e = .alerted lease o minutes → ∃ order, .read lease order ∈ log ∧
      (∃ at_, Follows (.read lease order) (.claimed lease at_) log) ∧ Alerts.due o order) : Safe (e::log) where
  exclusive newer later after_ between lease at_ older split same := by
    rcases splitCons split with ⟨_,rfl,_⟩ | ⟨rest,rfl,before⟩
    · cases quiet
    · exact h.exclusive rest later after_ between lease at_ older before same
  own lease held mem := by
    refine h.own lease held (mem.imp (fun mem => ?_) fun mem => ?_) <;>
    · rcases List.mem_cons.mp mem with rfl | mem
      · cases quiet
      · exact mem
  once := List.pairwise_cons.mpr ⟨fun earlier _ id _ => (by cases e <;> first | rfl | exact quiet.elim),h.once⟩
  due lease o minutes mem := by
    rcases List.mem_cons.mp mem with rfl | mem
    · obtain ⟨order,read,⟨at_,follows⟩,isDue⟩ := alert lease o minutes rfl
      exact ⟨order,.head read,⟨at_,follows.cons⟩,dueSource isDue⟩
    · obtain ⟨order,follows,⟨at_,before⟩,isDue⟩ := h.due lease o minutes mem
      exact ⟨order,follows.cons,⟨at_,before.cons⟩,isDue⟩

namespace AlertSystem

def stampTaken (log : List Event) (id : OrderId) (claimTime : Nat) : Bool :=
  log.any fun
    | .claimed lease _ => lease.id = id && lease.claimTime = claimTime
    | _ => false

/-- No committed claim of the order has carried this time before. -/
def Distinct (s : AlertSystem) : Action → Prop
  | .claim r _ =>
    match s.runs r with
    | some ⟨_,.claiming id claimTime _⟩ => stampTaken s.log id claimTime = false
    | _ => True
  | _ => True

instance (s : AlertSystem) (a : Action) : Decidable (s.Distinct a) := by
  unfold Distinct
  split
  · split <;> infer_instance
  · infer_instance

def Claimed (log : List Event) (lease : Lease) : Prop := ∃ at_, .claimed lease at_ ∈ log

def StageSound (s : AlertSystem) (o : AlertOptions) : Stage → Prop
  | .reading lease _ | .releasing lease _ | .sending lease _ | .marking lease _ _ | .recovering lease _ => Claimed s.log lease
  | .alerting lease order _ => Claimed s.log lease ∧ .read lease order ∈ s.log ∧
      (∃ at_, Follows (.read lease order) (.claimed lease at_) s.log) ∧ due o order
  | .listing | .next _ | .claiming _ _ _ => True

/-- What has become of a claim, of which `newer` are the later events. -/
inductive Fate (s : AlertSystem) (lease : Lease) (newer : List Event) : Prop where
  | current {order} (found : s.orders.find lease.id = some order) (held : order.undispatchedAlertClaimedAt = some lease.claimTime)
  | released (mem : .released lease (some lease.number) ∈ newer)
  | sent {order} (found : s.orders.find lease.id = some order) (marked : order.undispatchedAlertSentAt ≠ none)
  | aged (old : lease.claimTime + leaseMs ≤ s.clock)

structure Sound (s : AlertSystem) : Prop where
  numbered : ∀ lease, Claimed s.log lease → lease.number < s.claims
  named : ∀ lease other, Claimed s.log lease → Claimed s.log other → lease.id = other.id →
    lease.claimTime = other.claimTime → lease = other
  held : ∀ id order at_, s.orders.find id = some order → order.undispatchedAlertClaimedAt = some at_ →
    ∃ lease, Claimed s.log lease ∧ lease.id = id ∧ lease.claimTime = at_ ∧ s.holder id = some lease.number
  runs : ∀ r run, s.runs r = some run → run.options.now ≤ s.clock ∧ StageSound s run.options run.stage
  fates : ∀ newer lease at_ older, s.log = newer ++ .claimed lease at_::older → Fate s lease newer
  marks : ∀ id, s.log.any (Event.concludes id) = true → ∃ order, s.orders.find id = some order ∧ order.undispatchedAlertSentAt ≠ none
  safe : Safe s.log

variable {s t : AlertSystem} {lease : Lease}

theorem Claimed.cons {log : List Event} (h : Claimed log lease) (e : Event) : Claimed (e::log) lease :=
  h.imp fun _ mem => List.mem_cons_of_mem e mem

theorem Claimed.uncons {log : List Event} {e : Event} (h : Claimed (e::log) lease) (other : ∀ at_, e ≠ .claimed lease at_) :
    Claimed log lease := by
  obtain ⟨at_,mem⟩ := h
  rcases List.mem_cons.mp mem with same | mem
  · exact absurd same.symm (other at_)
  · exact ⟨at_,mem⟩

theorem StageSound.later {o : AlertOptions} {stage : Stage} (h : StageSound s o stage) (log : t.log = s.log ∨ ∃ e, t.log = e::s.log) :
    StageSound t o stage := by
  have claimed : ∀ lease, Claimed s.log lease → Claimed t.log lease := by
    intro lease held
    rcases log with same | ⟨e,more⟩
    · exact same ▸ held
    · exact more ▸ held.cons e
  cases stage with
  | listing | next | claiming => trivial
  | reading | releasing | sending | marking | recovering => exact claimed _ h
  | alerting lease order rest =>
    obtain ⟨held,read,⟨at_,follows⟩,isDue⟩ := h
    refine ⟨claimed lease held,?_,⟨at_,?_⟩,isDue⟩
    · rcases log with same | ⟨e,more⟩
      · exact same ▸ read
      · exact more ▸ List.mem_cons_of_mem e read
    · rcases log with same | ⟨e,more⟩
      · exact same ▸ follows
      · exact more ▸ follows.cons

/-- Rows of one id that agree on the lease. -/
structure SameLease (t u : AlertOrders) : Prop where
  kept : ∀ id order, t.find id = some order → ∃ later, u.find id = some later ∧
    later.undispatchedAlertClaimedAt = order.undispatchedAlertClaimedAt ∧ later.undispatchedAlertSentAt = order.undispatchedAlertSentAt
  held : ∀ id later at_, u.find id = some later → later.undispatchedAlertClaimedAt = some at_ → ∃ order, t.find id = some order ∧
    order.undispatchedAlertClaimedAt = some at_

theorem SameLease.refl (t : AlertOrders) : SameLease t t :=
  ⟨fun _ order found => ⟨order,found,rfl,rfl⟩,fun _ later _ found held => ⟨later,found,held⟩⟩

/-- A step that leaves every lease alone. -/
structure Calm (s t : AlertSystem) : Prop where
  clock : s.clock ≤ t.clock
  orders : SameLease s.orders t.orders
  claims : t.claims = s.claims
  holder : t.holder = s.holder
  log : t.log = s.log ∨ ∃ e, t.log = e::s.log ∧ e.quiet ∧ ∀ lease o minutes, e = .alerted lease o minutes →
    ∃ order, .read lease order ∈ s.log ∧ (∃ at_, Follows (.read lease order) (.claimed lease at_) s.log) ∧ due o order
  runs : ∀ r run, t.runs r = some run → s.runs r = some run ∨ (run.options.now ≤ t.clock ∧ StageSound t run.options run.stage)

theorem Fate.later {newer more : List Event} (h : Fate s lease newer) (clock : s.clock ≤ t.clock) (orders : SameLease s.orders t.orders)
    (grown : newer ⊆ more) : Fate t lease more := by
  cases h with
  | current found held =>
    obtain ⟨later,there,same,_⟩ := orders.kept _ _ found
    exact .current there (same.trans held)
  | released mem => exact .released (grown mem)
  | sent found marked =>
    obtain ⟨later,there,_,same⟩ := orders.kept _ _ found
    exact .sent there (same ▸ marked)
  | aged old => exact .aged (Nat.le_trans old clock)

theorem Sound.calm (h : Sound s) (c : Calm s t) : Sound t := by
  have claimed : ∀ lease, Claimed t.log lease ↔ Claimed s.log lease := by
    intro lease
    rcases c.log with same | ⟨e,more,quiet,_⟩
    · rw [same]
    · rw [more]
      exact ⟨fun held => held.uncons fun at_ same => by rw [same] at quiet; exact quiet,fun held => held.cons e⟩
  have grown : t.log = s.log ∨ ∃ e, t.log = e::s.log := c.log.imp id fun ⟨e,more,_⟩ => ⟨e,more⟩
  refine ⟨fun lease held => ?_,fun lease other held also => ?_,fun id later at_ found is => ?_,fun r run running => ?_,
    fun newer lease at_ older split => ?_,fun id concluded => ?_,?_⟩
  · exact c.claims ▸ h.numbered lease ((claimed lease).mp held)
  · exact h.named lease other ((claimed lease).mp held) ((claimed other).mp also)
  · obtain ⟨order,there,was⟩ := c.orders.held id later at_ found is
    obtain ⟨lease,held,same,time,holder⟩ := h.held id order at_ there was
    exact ⟨lease,(claimed lease).mpr held,same,time,c.holder ▸ holder⟩
  · rcases c.runs r run running with old | new
    · obtain ⟨past,stage⟩ := h.runs r run old
      exact ⟨Nat.le_trans past c.clock,stage.later grown⟩
    · exact new
  · rcases c.log with same | ⟨e,more,quiet,_⟩
    · exact (h.fates newer lease at_ older (same ▸ split)).later c.clock c.orders (List.Subset.refl _)
    · rw [more] at split
      rcases splitCons split with ⟨_,rfl,_⟩ | ⟨rest,rfl,before⟩
      · cases quiet
      · exact (h.fates rest lease at_ older before).later c.clock c.orders (List.subset_cons_self _ _)
  · have before : s.log.any (Event.concludes id) = true := by
      rcases c.log with same | ⟨e,more,quiet,_⟩
      · exact same ▸ concluded
      · rw [more,List.any_cons] at concluded
        cases e <;> first | exact quiet.elim | exact concluded
    obtain ⟨order,found,sent⟩ := h.marks id before
    obtain ⟨later,there,_,same⟩ := c.orders.kept id order found
    exact ⟨later,there,same ▸ sent⟩
  · rcases c.log with same | ⟨e,more,quiet,alert⟩
    · exact same ▸ h.safe
    · exact more ▸ h.safe.quiet quiet alert

theorem Sound.goto (h : Sound s) (r : Nat) {run : Option AlertRun}
    (sound : ∀ next, run = some next → next.options.now ≤ s.clock ∧ StageSound s next.options next.stage) : Sound (s.goto r run) := by
  refine h.calm ⟨Nat.le_refl _,.refl _,rfl,rfl,.inl rfl,fun q next running => ?_⟩
  by_cases mine : q = r
  · subst mine
    exact .inr (sound next (by simpa [AlertSystem.goto] using running))
  · exact .inl (by simpa [AlertSystem.goto,Function.update_of_ne mine] using running)

/-! ### Claims -/

theorem claimSource {orders later : AlertOrders} {o : AlertOptions} {id : OrderId} {claimTime : Nat}
    (ok : claimRow orders o id claimTime = some later) : ∃ order, orders.find id = some order ∧
      order.undispatchedAlertSentAt = none ∧ (∀ at_, order.undispatchedAlertClaimedAt = some at_ → at_ + leaseMs ≤ o.now) ∧
      later = orders.put { order with undispatchedAlertClaimedAt := some claimTime } := by
  obtain ⟨order,found,ok⟩ := Option.bind_eq_some_iff.mp ok
  split at ok <;> cases ok
  rename_i free
  refine ⟨order,found,free.2.1,fun at_ is => ?_,rfl⟩
  have passes := free.2.2
  rw [leaseFree,is,Option.all_some,decide_eq_true_eq] at passes
  exact passes

theorem closeSource {orders later : AlertOrders} {id : OrderId} {claimTime : Nat} {sentAt : Option Nat}
    (ok : closeRow orders id claimTime sentAt = some later) : ∃ order, orders.find id = some order ∧
      order.undispatchedAlertClaimedAt = some claimTime ∧ order.undispatchedAlertSentAt = none ∧
      later = orders.put { order with undispatchedAlertClaimedAt := none, undispatchedAlertSentAt := sentAt } := by
  obtain ⟨order,found,ok⟩ := Option.bind_eq_some_iff.mp ok
  split at ok <;> cases ok
  rename_i mine
  exact ⟨order,found,mine.1,mine.2,rfl⟩

theorem findPut {orders : AlertOrders} {order row : AlertOrder} {id : OrderId} (found : orders.find id = some order)
    (key : row.id = order.id) : (orders.put row).find id = some row ∧ ∀ other, other ≠ id → (orders.put row).find other = orders.find other := by
  obtain rfl : row.id = id := key.trans (Table.find_key found)
  exact ⟨Table.find_put_self orders row,fun other differ => Table.find_put_other differ⟩

theorem stampFree {log : List Event} {id : OrderId} {claimTime : Nat} (free : stampTaken log id claimTime = false) :
    ∀ lease, Claimed log lease → lease.id = id → lease.claimTime ≠ claimTime := by
  rintro lease ⟨at_,mem⟩ same time
  have := List.any_eq_false.mp free _ mem
  simp [same,time] at this

theorem beforeClaim {e : Event} {at_ : Nat} {log : List Event} (mem : e ∈ Event.claimed lease at_::log) (other : e ≠ .claimed lease at_) :
    e ∈ log := (List.mem_cons.mp mem).resolve_left other

theorem Sound.claim (h : Sound s) {o : AlertOptions} {id : OrderId} {claimTime : Nat} {orders : AlertOrders} (past : o.now ≤ s.clock)
    (ok : claimRow s.orders o id claimTime = some orders) (free : stampTaken s.log id claimTime = false) :
    Sound (s.claimed ⟨id,s.claims,claimTime⟩ orders) := by
  obtain ⟨order,found,unsent,apart,rfl⟩ := claimSource ok
  obtain ⟨here,others⟩ := findPut found (show { order with undispatchedAlertClaimedAt := some claimTime }.id = order.id from rfl)
  have fresh := stampFree free
  -- A claim that was current has reached its age; nothing else can be left of it on this order.
  have fate : ∀ newer lease at_ older, s.log = newer ++ .claimed lease at_::older →
      .released lease (some lease.number) ∈ newer ∨ lease.claimTime + leaseMs ≤ s.clock ∨ lease.id ≠ id := by
    intro newer lease at_ older split
    by_cases mine : lease.id = id
    · cases h.fates newer lease at_ older split with
      | current there held =>
        rw [mine,found] at there
        cases Option.some.inj there
        exact .inr (.inl (Nat.le_trans (apart _ held) past))
      | released mem => exact .inl mem
      | sent there marked =>
        rw [mine,found] at there
        cases Option.some.inj there
        exact absurd unsent marked
      | aged old => exact .inr (.inl old)
    · exact .inr (.inr mine)
  have unmarked : s.log.any (Event.concludes id) = false := by
    by_contra concluded
    obtain ⟨row,there,sent⟩ := h.marks id (by simpa using concluded)
    cases Option.some.inj (found.symm.trans there)
    exact sent unsent
  refine ⟨fun lease held => ?_,fun lease other held also same time => ?_,fun other row at_ there is => ?_,fun r run running => ?_,
    fun newer lease at_ older split => ?_,fun other concluded => ?_,?_⟩
  · obtain ⟨at_,mem⟩ := held
    rcases List.mem_cons.mp mem with same | mem
    · cases same
      exact Nat.lt_succ_self _
    · exact Nat.lt_succ_of_lt (h.numbered lease ⟨at_,mem⟩)
  · obtain ⟨at_,mem⟩ := held
    obtain ⟨at',mem'⟩ := also
    rcases List.mem_cons.mp mem with new | old <;> rcases List.mem_cons.mp mem' with new' | old'
    · cases new
      cases new'
      rfl
    · cases new
      exact absurd time.symm (fresh other ⟨at',old'⟩ same.symm)
    · cases new'
      exact absurd time (fresh lease ⟨at_,old⟩ same)
    · exact h.named lease other ⟨at_,old⟩ ⟨at',old'⟩ same time
  · by_cases mine : other = id
    · subst mine
      cases Option.some.inj (here.symm.trans there)
      exact ⟨_,⟨_,List.mem_cons_self⟩,rfl,Option.some.inj is,Function.update_self ..⟩
    · obtain ⟨lease,held,same,time,holder⟩ := h.held other row at_ ((others other mine).symm.trans there) is
      exact ⟨lease,held.cons _,same,time,(Function.update_of_ne mine _ _).trans holder⟩
  · obtain ⟨past,stage⟩ := h.runs r run running
    exact ⟨past,stage.later (.inr ⟨_,rfl⟩)⟩
  · rcases splitCons split with ⟨rfl,same,_⟩ | ⟨rest,rfl,before⟩
    · cases same
      exact .current here rfl
    · rcases fate rest lease at_ older before with mem | old | differ
      · exact .released (List.mem_cons_of_mem _ mem)
      · exact .aged old
      · cases h.fates rest lease at_ older before with
        | current there held => exact .current ((others _ differ).trans there) held
        | released mem => exact .released (List.mem_cons_of_mem _ mem)
        | sent there marked => exact .sent ((others _ differ).trans there) marked
        | aged old => exact .aged old
  · obtain ⟨row,there,sent⟩ := h.marks other (by simpa [claimed,Event.concludes] using concluded)
    by_cases mine : other = id
    · subst mine
      cases Option.some.inj (found.symm.trans there)
      exact absurd unsent sent
    · exact ⟨row,(others other mine).trans there,sent⟩
  · refine ⟨fun newer later after_ between lease at_ older split same => ?_,fun lease held mem => ?_,
      List.pairwise_cons.mpr ⟨fun earlier mem other concluded => ?_,h.safe.once⟩,fun lease o minutes mem => ?_⟩
    · rcases splitCons split with ⟨rfl,new,before⟩ | ⟨rest,rfl,before⟩
      · cases new
        rcases fate between lease at_ older before with mem | old | differ
        · exact .inl mem
        · exact .inr old
        · exact absurd same.symm differ
      · exact h.safe.exclusive rest later after_ between lease at_ older before same
    · exact h.safe.own lease held (mem.imp (beforeClaim · (by simp)) (beforeClaim · (by simp)))
    · have no := List.any_eq_false.mp unmarked earlier mem
      simp only [Event.opens,decide_eq_false_iff_not]
      rintro rfl
      exact no concluded
    · obtain ⟨order,follows,⟨at_,before⟩,isDue⟩ := h.safe.due lease o minutes (beforeClaim mem (by simp))
      exact ⟨order,follows.cons,⟨at_,before.cons⟩,isDue⟩

/-! ### Releases and marks -/

def closing (lease : Lease) (sentAt : Option Nat) : Event :=
  if sentAt.isSome then .marked lease (some lease.number) else .released lease (some lease.number)

theorem closingCases (lease : Lease) (sentAt : Option Nat) :
    (sentAt = none ∧ closing lease sentAt = .released lease (some lease.number)) ∨
      ((∃ at_, sentAt = some at_) ∧ closing lease sentAt = .marked lease (some lease.number)) := by
  cases sentAt with
  | none => exact .inl ⟨rfl,rfl⟩
  | some at_ => exact .inr ⟨⟨at_,rfl⟩,rfl⟩

theorem Sound.closable (h : Sound s) (claimed : Claimed s.log lease) {sentAt : Option Nat} {orders : AlertOrders}
    (ok : closeRow s.orders lease.id lease.claimTime sentAt = some orders) : s.holder lease.id = some lease.number ∧
      (∀ order, s.orders.find lease.id = some order → order.undispatchedAlertSentAt = none ∧
        order.undispatchedAlertClaimedAt = some lease.claimTime) ∧
      (∃ order, orders.find lease.id = some order ∧ order.undispatchedAlertClaimedAt = none ∧ order.undispatchedAlertSentAt = sentAt) ∧
      ∀ other, other ≠ lease.id → orders.find other = s.orders.find other := by
  obtain ⟨order,found,mine,unsent,rfl⟩ := closeSource ok
  obtain ⟨here,others⟩ := findPut found
    (show { order with undispatchedAlertClaimedAt := none, undispatchedAlertSentAt := sentAt }.id = order.id from rfl)
  obtain ⟨holder,held,same,time,number⟩ := h.held lease.id order lease.claimTime found mine
  obtain rfl := h.named holder lease held claimed same time
  exact ⟨number,fun row there => Option.some.inj (found.symm.trans there) ▸ ⟨unsent,mine⟩,⟨_,here,rfl,rfl⟩,others⟩

theorem Sound.close (h : Sound s) (claimed : Claimed s.log lease) {sentAt : Option Nat} {orders : AlertOrders}
    (ok : closeRow s.orders lease.id lease.claimTime sentAt = some orders) :
    Sound { s with
      orders, holder := Function.update s.holder lease.id none, log := closing lease sentAt::s.log } := by
  obtain ⟨number,before,⟨row,here,free,sent⟩,others⟩ := h.closable claimed ok
  have event := closingCases lease sentAt
  have notClaimed : ∀ l at_, closing lease sentAt ≠ .claimed l at_ := by
    rcases event with ⟨_,is⟩ | ⟨_,is⟩ <;> simp [is]
  have unmarked : ∀ id, s.log.any (Event.concludes id) = true → id ≠ lease.id := by
    rintro _ concluded rfl
    obtain ⟨order,found,marked⟩ := h.marks lease.id concluded
    exact marked (before order found).1
  refine ⟨fun l held => ?_,fun l other held also => ?_,fun id order at_ found is => ?_,fun r run running => ?_,
    fun newer l at_ older split => ?_,fun id concluded => ?_,?_⟩
  · exact h.numbered l (held.uncons (notClaimed l))
  · exact h.named l other (held.uncons (notClaimed l)) (also.uncons (notClaimed other))
  · have differ : id ≠ lease.id := by
      rintro rfl
      cases Option.some.inj (here.symm.trans found)
      exact absurd (free.symm.trans is) nofun
    obtain ⟨l,held,same,time,holder⟩ := h.held id order at_ ((others id differ).symm.trans found) is
    exact ⟨l,held.cons _,same,time,(Function.update_of_ne differ _ _).trans holder⟩
  · obtain ⟨past,stage⟩ := h.runs r run running
    exact ⟨past,stage.later (.inr ⟨_,rfl⟩)⟩
  · rcases splitCons split with ⟨_,same,_⟩ | ⟨rest,rfl,old⟩
    · exact absurd same (notClaimed l at_)
    by_cases mine : l.id = lease.id
    · cases h.fates rest l at_ older old with
      | current there held =>
        have time := Option.some.inj (held.symm.trans (before _ (mine ▸ there)).2)
        obtain rfl := h.named l lease ⟨at_,old ▸ by simp⟩ claimed mine time
        rcases event with ⟨_,is⟩ | ⟨⟨time,is⟩,_⟩
        · exact .released (is ▸ List.mem_cons_self)
        · exact .sent here (by simp [sent,is])
      | released mem => exact .released (List.mem_cons_of_mem _ mem)
      | sent there marked => exact absurd (before _ (mine ▸ there)).1 marked
      | aged old => exact .aged old
    · cases h.fates rest l at_ older old with
      | current there held => exact .current ((others _ mine).trans there) held
      | released mem => exact .released (List.mem_cons_of_mem _ mem)
      | sent there marked => exact .sent ((others _ mine).trans there) marked
      | aged old => exact .aged old
  · rcases event with ⟨_,is⟩ | ⟨⟨time,isSome⟩,is⟩ <;>
      rw [is,List.any_cons] at concluded
    · obtain ⟨order,found,marked⟩ := h.marks id (by simpa [Event.concludes] using concluded)
      exact ⟨order,(others id (unmarked id (by simpa [Event.concludes] using concluded))).trans found,marked⟩
    · by_cases mine : id = lease.id
      · exact ⟨row,mine ▸ here,by simp [sent,isSome]⟩
      · have old : s.log.any (Event.concludes id) = true := by simpa [Event.concludes,Ne.symm mine] using concluded
        obtain ⟨order,found,marked⟩ := h.marks id old
        exact ⟨order,(others id mine).trans found,marked⟩
  · refine ⟨fun newer later after_ between l at_ older split same => ?_,fun l held mem => ?_,
      List.pairwise_cons.mpr ⟨fun earlier mem id concluded => ?_,h.safe.once⟩,fun l o minutes mem => ?_⟩
    · rcases splitCons split with ⟨_,same,_⟩ | ⟨rest,rfl,old⟩
      · exact absurd same (notClaimed later after_)
      · exact h.safe.exclusive rest later after_ between l at_ older old same
    · rcases event with ⟨_,is⟩ | ⟨_,is⟩
      · rw [is] at mem
        rcases mem with mem | mem
        · rcases List.mem_cons.mp mem with new | old
          · cases new
            rfl
          · exact h.safe.own l held (.inl old)
        · exact h.safe.own l held (.inr (by simpa using mem))
      · rw [is] at mem
        rcases mem with mem | mem
        · exact h.safe.own l held (.inl (by simpa using mem))
        · rcases List.mem_cons.mp mem with new | old
          · cases new
            rfl
          · exact h.safe.own l held (.inr old)
    · have differ := unmarked id (List.any_eq_true.mpr ⟨earlier,mem,concluded⟩)
      rcases event with ⟨_,is⟩ | ⟨_,is⟩ <;> simp [is,Event.opens,differ.symm]
    · have old : .alerted l o minutes ∈ s.log := by
        rcases event with ⟨_,is⟩ | ⟨_,is⟩ <;> simpa [is] using mem
      obtain ⟨order,follows,⟨at_,earlier⟩,isDue⟩ := h.safe.due l o minutes old
      exact ⟨order,follows.cons,⟨at_,earlier.cons⟩,isDue⟩

theorem Sound.closed (h : Sound s) (claimed : Claimed s.log lease) (sentAt : Option Nat) (arrives : Bool) :
    Sound (s.closed lease sentAt arrives) := by
  unfold AlertSystem.closed
  split
  · exact h
  · rename_i orders ok
    have ok : closeRow s.orders lease.id lease.claimTime sentAt = some orders := by
      cases arrives with
      | false => simp at ok
      | true => simpa using ok
    rw [(h.closable claimed ok).1]
    exact h.close claimed ok

/-! ### Runs -/

theorem closedFrame (s : AlertSystem) (lease : Lease) (sentAt : Option Nat) (arrives : Bool) :
    (s.closed lease sentAt arrives).clock = s.clock ∧ (s.closed lease sentAt arrives).runs = s.runs ∧
      ∀ l, Claimed s.log l → Claimed (s.closed lease sentAt arrives).log l := by
  unfold AlertSystem.closed
  split
  · exact ⟨rfl,rfl,fun _ held => held⟩
  · exact ⟨rfl,rfl,fun _ held => held.cons _⟩

theorem sameLeasePut {orders : AlertOrders} {order row : AlertOrder} {id : OrderId} (found : orders.find id = some order)
    (key : row.id = order.id) (claimedAt : row.undispatchedAlertClaimedAt = order.undispatchedAlertClaimedAt)
    (sentAt : row.undispatchedAlertSentAt = order.undispatchedAlertSentAt) : SameLease orders (orders.put row) := by
  obtain ⟨here,others⟩ := findPut found key
  refine ⟨fun other old there => ?_,fun other later at_ there is => ?_⟩
  · by_cases mine : other = id
    · subst mine
      cases Option.some.inj (found.symm.trans there)
      exact ⟨row,here,claimedAt,sentAt⟩
    · exact ⟨old,(others other mine).trans there,rfl,rfl⟩
  · by_cases mine : other = id
    · subst mine
      cases Option.some.inj (here.symm.trans there)
      exact ⟨order,found,claimedAt.symm.trans is⟩
    · exact ⟨later,(others other mine).symm.trans there,is⟩

theorem sameLeaseNew {orders : AlertOrders} {row : AlertOrder} (absent : orders.find row.id = none)
    (free : row.undispatchedAlertClaimedAt = none) : SameLease orders (orders.put row) := by
  have others : ∀ id, id ≠ row.id → (orders.put row).find id = orders.find id := fun _ differ => Table.find_put_other differ
  refine ⟨fun id old found => ?_,fun id later at_ found is => ?_⟩
  · have differ : id ≠ row.id := by
      rintro rfl
      exact absurd (absent.symm.trans found) nofun
    exact ⟨old,(others id differ).trans found,rfl,rfl⟩
  · by_cases mine : id = row.id
    · subst mine
      cases Option.some.inj ((Table.find_put_self orders row).symm.trans found)
      exact absurd (free.symm.trans is) nofun
    · exact ⟨later,(others id mine).symm.trans found,is⟩

theorem Sound.closeThen (h : Sound s) {o : AlertOptions} (past : o.now ≤ s.clock) (claimed : Claimed s.log lease) (sentAt : Option Nat)
    (arrives : Bool) (r : Nat) {stage : Stage} (next : ∀ t : AlertSystem, Claimed t.log lease → StageSound t o stage) :
    Sound ((s.closed lease sentAt arrives).goto r (going o stage)) := by
  obtain ⟨clock,_,kept⟩ := closedFrame s lease sentAt arrives
  refine (h.closed claimed sentAt arrives).goto r fun run new => ?_
  cases new
  exact ⟨clock ▸ past,next _ (kept lease claimed)⟩

/-- A step of one processor that writes nothing but perhaps a quiet event. -/
theorem Sound.settle (h : Sound s) {r : Nat} {run : Option AlertRun} {e : Event} (quiet : e.quiet)
    (alert : ∀ lease o minutes, e = .alerted lease o minutes → ∃ order, .read lease order ∈ s.log ∧
      (∃ at_, Follows (.read lease order) (.claimed lease at_) s.log) ∧ due o order)
    (sound : ∀ next, run = some next → next.options.now ≤ s.clock ∧ StageSound { s with log := e::s.log } next.options next.stage) :
    Sound ({ s with log := e::s.log }.goto r run) :=
  (h.calm (t := { s with log := e::s.log }) ⟨Nat.le_refl _,.refl _,rfl,rfl,.inr ⟨e,rfl,quiet,alert⟩,fun _ _ running => .inl running⟩).goto r sound

theorem Sound.step (h : Sound s) {a : Action} (distinct : s.Distinct a) (ok : s.step a = some t) : Sound t := by
  cases a with
  | tick elapsed =>
    cases ok
    exact h.calm ⟨Nat.le_add_right _ _,.refl _,rfl,rfl,.inl rfl,fun _ _ running => .inl running⟩
  | createOrder order =>
    dsimp only [AlertSystem.step] at ok
    split at ok <;> cases ok
    rename_i absent
    exact h.calm ⟨Nat.le_refl _,sameLeaseNew absent rfl,rfl,rfl,.inl rfl,fun _ _ running => .inl running⟩
  | changeOrder id status dispatchedAt pauses =>
    obtain ⟨order,found,rfl⟩ := Option.map_eq_some_iff.mp ok
    exact h.calm ⟨Nat.le_refl _,sameLeasePut found rfl rfl rfl,rfl,rfl,.inl rfl,fun _ _ running => .inl running⟩
  | begin_ r alertAfterMinutes maxAgeHours =>
    dsimp only [AlertSystem.step] at ok
    split at ok <;> cases ok
    exact h.goto r fun next new => by cases new; exact ⟨Nat.le_refl _,trivial⟩
  | crash r =>
    cases ok
    exact h.goto r nofun
  | list r =>
    dsimp only [AlertSystem.step] at ok
    split at ok <;> cases ok
    rename_i running
    exact h.goto r fun next new => by cases new; exact ⟨(h.runs r _ running).1,trivial⟩
  | stamp r =>
    dsimp only [AlertSystem.step] at ok
    split at ok <;> cases ok
    · exact h.goto r nofun
    · rename_i running
      exact h.goto r fun next new => by cases new; exact ⟨(h.runs r _ running).1,trivial⟩
  | claim r transport =>
    dsimp only [AlertSystem.step] at ok
    split at ok
    case h_2 => cases ok
    rename_i o id claimTime rest running
    have past := (h.runs r _ running).1
    split at ok <;> cases ok
    · refine h.goto r fun next new => ?_
      split at new <;> cases new
      exact ⟨past,trivial⟩
    · rename_i orders claim
      have claim : claimRow s.orders o id claimTime = some orders := by
        split at claim
        · exact claim
        · cases claim
      have free : stampTaken s.log id claimTime = false := by simpa [Distinct,running] using distinct
      refine (h.claim past claim free).goto r fun next new => ?_
      split at new <;> cases new
      exact ⟨past,_,List.mem_cons_self⟩
  | read r replies =>
    dsimp only [AlertSystem.step] at ok
    split at ok
    case h_2 => cases ok
    rename_i o lease rest running
    obtain ⟨past,held⟩ := h.runs r _ running
    split at ok
    · cases ok
      exact h.goto r fun next new => by cases new; exact ⟨past,held⟩
    split at ok <;> cases ok
    · exact h.goto r fun next new => by cases new; exact ⟨past,held⟩
    · rename_i order found
      refine h.settle (e := .read lease order) trivial nofun fun next new => ?_
      cases new
      refine ⟨past,?_⟩
      dsimp only
      split
      · rename_i isDue
        exact ⟨held.cons _,List.mem_cons_self,held.imp fun _ mem => .head mem,isDue⟩
      · exact held.cons _
  | send r =>
    dsimp only [AlertSystem.step] at ok
    split at ok <;> cases ok
    rename_i o lease order rest running
    obtain ⟨past,held,read,follows,isDue⟩ := h.runs r _ running
    exact h.settle trivial (fun l p minutes same => by cases same; exact ⟨order,read,follows,isDue⟩)
      fun next new => by cases new; exact ⟨past,held.cons _⟩
  | answered r accepted =>
    dsimp only [AlertSystem.step] at ok
    split at ok <;> cases ok
    rename_i o lease rest running
    obtain ⟨past,held⟩ := h.runs r _ running
    refine h.goto r fun next new => ?_
    cases new
    refine ⟨past,?_⟩
    dsimp only
    split <;> exact held
  | close r transport =>
    dsimp only [AlertSystem.step] at ok
    split at ok <;> cases ok
    · rename_i running
      obtain ⟨past,held⟩ := h.runs r _ running
      exact h.closeThen past held _ _ r fun t kept => by split <;> trivial
    · rename_i running
      obtain ⟨past,held⟩ := h.runs r _ running
      exact h.closeThen past held _ _ r fun t kept => by split <;> trivial
    · rename_i running
      obtain ⟨past,held⟩ := h.runs r _ running
      exact h.closeThen past held _ _ r fun t kept => trivial

theorem Sound.initial (clock : Nat) : Sound (initial clock) where
  numbered lease := fun ⟨_,mem⟩ => absurd mem List.not_mem_nil
  named lease _ := fun ⟨_,mem⟩ => absurd mem List.not_mem_nil
  held id order at_ found := nomatch found
  runs r run running := nomatch running
  fates newer lease at_ older split := by simp [AlertSystem.initial] at split
  marks id concluded := nomatch concluded
  safe :=
    ⟨fun newer later after_ between lease at_ older split => by simp [AlertSystem.initial] at split,
      fun lease held mem => by simp [AlertSystem.initial] at mem,.nil,fun lease o minutes mem => absurd mem List.not_mem_nil⟩

def sampleOrder : AlertOrder := ⟨"o",1001,0,.placed,none,[],none,none⟩

def arrived : Transport := ⟨true,true⟩

def claimRun (r : Nat) : List Action := [.begin_ r 5 24,.list r,.stamp r,.claim r arrived]

def readRun (r : Nat) : List Action := [.read r true,.send r,.answered r true,.close r arrived]

def slowRun : List Action :=
  [Action.createOrder sampleOrder,.tick 300000] ++ claimRun 0 ++ [Action.read 0 true,.send 0,.tick leaseMs] ++ claimRun 1 ++ readRun 1 ++
    [Action.answered 0 true,.close 0 arrived]

def equalStamps : List Action :=
  [Action.createOrder sampleOrder,.tick 300000,.begin_ 2 5 24,.list 2,.stamp 2] ++ claimRun 0 ++ [Action.read 0 true,.send 0,.tick leaseMs] ++
    claimRun 1 ++ [Action.read 1 false,.close 1 arrived,.claim 2 arrived,.answered 0 true,.close 0 arrived]

end AlertSystem
end Alerts
end SpeedySweeties
