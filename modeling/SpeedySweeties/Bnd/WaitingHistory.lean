import SpeedySweeties.Bnd.Observation

/-! The waiting periods that are recorded of B&D orders. One recording is one transaction
under an advisory lock, so that recordings follow one another; a period is read back as
what the recorded snapshots say of its order. -/
namespace SpeedySweeties

def bndPollMs : Nat := 60000
def fiveMinutesMs : Nat := 300000
def maxObservationGapMs : Nat := 2*bndPollMs

inductive BndEndReason where | missing | claimed | gap deriving DecidableEq, Repr

/-- Times are milliseconds. The rows keep their order of creation; an update finds its row by
a key of its own. -/
structure BndWaitingPeriod where
  orderId : String
  orderNumber : String
  firstSeenAt : Nat
  lastSeenWaitingAt : Nat
  overFiveMinutesAt : Option Nat := none
  endObservedAt : Option Nat := none
  endReason : Option BndEndReason := none
  deriving DecidableEq, Repr

structure BndMonitorCheck where
  checkedAt : Nat
  pendingCount : Nat
  deriving DecidableEq, Repr

structure BndHistory where
  checks : List BndMonitorCheck
  periods : List BndWaitingPeriod
  deriving DecidableEq, Repr

namespace BndHistory

def empty : BndHistory := ⟨[],[]⟩

def endReason (order : Option BndObservedOrder) : BndEndReason :=
  match order with
  | none => .missing
  | some order => if order.claimed then .claimed else .gap

/-- Whether the loop over the active periods extends this one. -/
def continues (current : BndSnapshot) (observedAt : Nat) (period : BndWaitingPeriod) : Bool :=
  period.endObservedAt.isNone && (current.orders.find? fun order => order.id = period.orderId).any fun order =>
    !order.claimed && observedAt ≤ period.lastSeenWaitingAt + maxObservationGapMs

def observePeriod (current : BndSnapshot) (observedAt : Nat) (period : BndWaitingPeriod) : BndWaitingPeriod :=
  if period.endObservedAt.isSome then period
  else if continues current observedAt period then
    { period with
      lastSeenWaitingAt := observedAt
      overFiveMinutesAt := period.overFiveMinutesAt <|>
        if period.firstSeenAt + fiveMinutesMs < observedAt then some observedAt else none }
  else
    { period with
      endObservedAt := some observedAt
      endReason := some (endReason (current.orders.find? fun order => order.id = period.orderId)) }

def newPeriods (s : BndHistory) (current : BndSnapshot) (observedAt : Nat) : List BndWaitingPeriod :=
  let continuing := (s.periods.filter (continues current observedAt)).map (·.orderId)
  (current.orders.filter fun order => !order.claimed && order.id ∉ continuing).map fun order =>
    { orderId := order.id, orderNumber := order.number, firstSeenAt := observedAt, lastSeenWaitingAt := observedAt }

def latest (s : BndHistory) : Option Nat := (s.checks.map (·.checkedAt)).max?

def recordBndSnapshot (s : BndHistory) (current : BndSnapshot) (observedAt : Nat) : BndHistory :=
  if s.latest.any (observedAt ≤ ·) then s
  else
    { checks := ⟨observedAt,(current.orders.filter fun order => !order.claimed).length⟩::s.checks
      periods := s.periods.map (observePeriod current observedAt) ++ s.newPeriods current observedAt }

end BndHistory

/-! ### Sequences of recordings -/

structure BndRecording where
  snapshot : BndSnapshot
  observedAt : Nat

def BndSnapshot.Waits (s : BndSnapshot) (id : String) : Prop := ∃ order ∈ s.orders, order.id = id ∧ order.claimed = false

namespace BndHistory

def recordAll (calls : List BndRecording) : BndHistory :=
  calls.foldl (fun s r => s.recordBndSnapshot r.snapshot r.observedAt) empty

/-- The recordings that were not out of order, the newest one first. -/
def recorded (calls : List BndRecording) : List BndRecording :=
  calls.foldl (fun taken r => if taken.any fun earlier => r.observedAt ≤ earlier.observedAt then taken else r::taken) []

/-- The recordings within a period. -/
def observations (taken : List BndRecording) (p : BndWaitingPeriod) : List BndRecording :=
  taken.filter fun r => p.firstSeenAt ≤ r.observedAt && r.observedAt ≤ p.lastSeenWaitingAt

structure PeriodSound (taken : List BndRecording) (p : BndWaitingPeriod) : Prop where
  ordered : p.firstSeenAt ≤ p.lastSeenWaitingAt
  first : ∃ r ∈ taken, r.observedAt = p.firstSeenAt
  last : ∃ r ∈ taken, r.observedAt = p.lastSeenWaitingAt
  waits : ∀ r ∈ observations taken p, r.snapshot.Waits p.orderId
  gaps : (observations taken p).IsChain fun later earlier => later.observedAt ≤ earlier.observedAt + maxObservationGapMs
  overFive : p.overFiveMinutesAt.isSome ↔ p.firstSeenAt + fiveMinutesMs < p.lastSeenWaitingAt
  ended : ∀ at_, p.endObservedAt = some at_ → p.lastSeenWaitingAt < at_ ∧ ∃ r ∈ taken, r.observedAt = at_
  open_ : p.endObservedAt = none → taken.head?.map (·.observedAt) = some p.lastSeenWaitingAt

/-- The earlier period of an order has ended when the later one begins. -/
def Apart (p q : BndWaitingPeriod) : Prop :=
  p.orderId = q.orderId → ∃ at_, p.endObservedAt = some at_ ∧ at_ ≤ q.firstSeenAt

structure Sound (s : BndHistory) (taken : List BndRecording) : Prop where
  checks : s.checks.map (·.checkedAt) = taken.map (·.observedAt)
  increasing : taken.Pairwise fun later earlier => earlier.observedAt < later.observedAt
  periods : ∀ p ∈ s.periods, PeriodSound taken p
  apart : s.periods.Pairwise Apart
  waiting : ∀ r ∈ taken.head?, ∀ id, (∃ p ∈ s.periods, p.orderId = id ∧ p.endObservedAt = none) ↔ r.snapshot.Waits id

variable {s : BndHistory} {taken : List BndRecording} {r : BndRecording} {p : BndWaitingPeriod}

theorem Sound.latest (h : Sound s taken) :
    s.latest.any (r.observedAt ≤ ·) = taken.any fun earlier => r.observedAt ≤ earlier.observedAt := by
  rw [BndHistory.latest,h.checks]
  cases newest : (taken.map (·.observedAt)).max? with
  | none =>
    rw [List.max?_eq_none_iff,List.map_eq_nil_iff] at newest
    simp [newest]
  | some m =>
    obtain ⟨mem,most⟩ := List.max?_eq_some_iff.mp newest
    obtain ⟨n,here,rfl⟩ := List.mem_map.mp mem
    rw [Option.any_some,Bool.eq_iff_iff,List.any_eq_true]
    simp only [decide_eq_true_eq]
    constructor
    · exact fun behind => ⟨n,here,behind⟩
    · rintro ⟨earlier,there,behind⟩
      exact Nat.le_trans behind (most _ (List.mem_map_of_mem there))

theorem continuesSource (h : continues r.snapshot r.observedAt p = true) : p.endObservedAt = none ∧
    r.snapshot.Waits p.orderId ∧ r.observedAt ≤ p.lastSeenWaitingAt + maxObservationGapMs := by
  simp only [continues,Bool.and_eq_true,Option.isNone_iff_eq_none,Option.any_eq_true] at h
  obtain ⟨active,order,found,unclaimed,near⟩ := h
  refine ⟨active,⟨order,List.mem_of_find?_eq_some found,?_,by simpa using unclaimed⟩,by simpa using near⟩
  simpa using List.find?_some found

theorem observationsBefore (later : p.lastSeenWaitingAt < r.observedAt) : observations (r::taken) p = observations taken p := by
  rw [observations,List.filter_cons_of_neg]
  · rfl
  · simp only [Bool.and_eq_true,decide_eq_true_eq]
    omega

theorem observationsExtended {p extended : BndWaitingPeriod} (first : extended.firstSeenAt = p.firstSeenAt)
    (last : extended.lastSeenWaitingAt = r.observedAt) (begun : p.firstSeenAt ≤ r.observedAt)
    (within : ∀ x ∈ taken, x.observedAt ≤ p.lastSeenWaitingAt) (later : p.lastSeenWaitingAt ≤ r.observedAt) :
    observations (r::taken) extended = r::observations taken p := by
  rw [observations,List.filter_cons_of_pos (by simp [first,last,begun])]
  refine congrArg (r::·) (List.filter_congr fun x mem => ?_)
  have := within x mem
  rw [first,last,decide_eq_true (show x.observedAt ≤ p.lastSeenWaitingAt from this),
    decide_eq_true (show x.observedAt ≤ r.observedAt by omega)]

theorem PeriodSound.ending {ended : BndWaitingPeriod} (h : PeriodSound taken p) (later : ∀ x ∈ taken, x.observedAt < r.observedAt)
    (order : ended.orderId = p.orderId) (first : ended.firstSeenAt = p.firstSeenAt)
    (last : ended.lastSeenWaitingAt = p.lastSeenWaitingAt) (overFive : ended.overFiveMinutesAt = p.overFiveMinutesAt)
    (closes : ended.endObservedAt = p.endObservedAt ∧ p.endObservedAt ≠ none ∨ ended.endObservedAt = some r.observedAt) :
    PeriodSound (r::taken) ended := by
  obtain ⟨seen,known,seenAt⟩ := h.last
  have before : p.lastSeenWaitingAt < r.observedAt := seenAt ▸ later seen known
  have same : observations (r::taken) ended = observations taken p := by
    rw [observationsBefore (by rwa [last])]
    exact List.filter_congr fun x _ => by rw [first,last]
  obtain ⟨begun,there,begunAt⟩ := h.first
  refine ⟨by rw [first,last]; exact h.ordered,⟨begun,List.mem_cons_of_mem _ there,begunAt.trans first.symm⟩,
    ⟨seen,List.mem_cons_of_mem _ known,seenAt.trans last.symm⟩,?_,by rw [same]; exact h.gaps,?_,?_,?_⟩
  · rw [same,order]
    exact h.waits
  · rw [overFive,first,last]
    exact h.overFive
  · intro at_ is
    rw [last]
    rcases closes with ⟨kept,_⟩ | now
    · obtain ⟨after,x,mem,here⟩ := h.ended at_ (kept.symm.trans is)
      exact ⟨after,x,List.mem_cons_of_mem _ mem,here⟩
    · cases Option.some.inj (now.symm.trans is)
      exact ⟨before,r,List.mem_cons_self,rfl⟩
  · intro still
    rcases closes with ⟨kept,closed⟩ | now
    · exact absurd (kept.symm.trans still) closed
    · rw [now] at still
      cases still

theorem PeriodSound.observe (h : PeriodSound taken p) (increasing : taken.Pairwise fun later earlier => earlier.observedAt < later.observedAt)
    (later : ∀ x ∈ taken, x.observedAt < r.observedAt) :
    PeriodSound (r::taken) (observePeriod r.snapshot r.observedAt p) := by
  unfold observePeriod
  split
  · rename_i closed
    exact h.ending later rfl rfl rfl rfl (.inl ⟨rfl,Option.isSome_iff_ne_none.mp closed⟩)
  split
  · rename_i extends_
    obtain ⟨active,waits,near⟩ := continuesSource extends_
    cases taken with
    | nil => cases h.open_ active
    | cons newest rest =>
      have last : newest.observedAt = p.lastSeenWaitingAt := Option.some.inj (h.open_ active)
      have within : ∀ x ∈ newest::rest, x.observedAt ≤ p.lastSeenWaitingAt := by
        intro x mem
        rcases List.mem_cons.mp mem with rfl | mem
        · exact Nat.le_of_eq last
        · exact Nat.le_of_lt (last ▸ List.rel_of_pairwise_cons increasing mem)
      have before : p.lastSeenWaitingAt < r.observedAt := last ▸ later newest List.mem_cons_self
      have begun := Nat.le_of_lt (Nat.lt_of_le_of_lt h.ordered before)
      have seen : observations (r::newest::rest) { p with
          lastSeenWaitingAt := r.observedAt
          overFiveMinutesAt := p.overFiveMinutesAt <|>
            if p.firstSeenAt + fiveMinutesMs < r.observedAt then some r.observedAt else none } =
          r::observations (newest::rest) p := observationsExtended rfl rfl begun within (Nat.le_of_lt before)
      obtain ⟨first,there,firstAt⟩ := h.first
      refine ⟨begun,⟨first,List.mem_cons_of_mem _ there,firstAt⟩,⟨r,List.mem_cons_self,rfl⟩,?_,?_,?_,?_,?_⟩
      · rw [seen]
        exact List.forall_mem_cons.mpr ⟨waits,h.waits⟩
      · have shape : observations (newest::rest) p = newest::observations rest p :=
          List.filter_cons_of_pos (by simp [last,h.ordered])
        have gaps := h.gaps
        rw [shape] at gaps
        rw [seen,shape]
        exact .cons_cons (last ▸ near) gaps
      · dsimp only
        by_cases long : p.firstSeenAt + fiveMinutesMs < r.observedAt
        · cases p.overFiveMinutesAt <;> simp [long]
        · have short : p.overFiveMinutesAt = none := by
            have := h.overFive.not.mpr (by omega)
            simpa using this
          simp [long,short]
      · intro at_ is
        rw [active] at is
        cases is
      · exact fun _ => rfl
  · exact h.ending later rfl rfl rfl rfl (.inr rfl)

theorem PeriodSound.begin_ {order : BndObservedOrder} (mem : order ∈ r.snapshot.orders) (unclaimed : order.claimed = false)
    (later : ∀ x ∈ taken, x.observedAt < r.observedAt) : PeriodSound (r::taken)
      { orderId := order.id, orderNumber := order.number, firstSeenAt := r.observedAt, lastSeenWaitingAt := r.observedAt } := by
  have alone : observations (r::taken)
      { orderId := order.id, orderNumber := order.number, firstSeenAt := r.observedAt, lastSeenWaitingAt := r.observedAt } = [r] := by
    rw [observations,List.filter_cons_of_pos (by simp),List.filter_eq_nil_iff.mpr]
    intro x mem
    have := later x mem
    simp only [Bool.and_eq_true,decide_eq_true_eq]
    omega
  refine ⟨Nat.le_refl _,⟨r,List.mem_cons_self,rfl⟩,⟨r,List.mem_cons_self,rfl⟩,?_,?_,by simp,nofun,fun _ => rfl⟩
  · rw [alone]
    simpa using ⟨order,mem,rfl,unclaimed⟩
  · rw [alone]
    exact .singleton _

@[simp] theorem observePeriodOrder : (observePeriod r.snapshot r.observedAt p).orderId = p.orderId := by
  unfold observePeriod
  split
  · rfl
  · split <;> rfl

@[simp] theorem observePeriodFirst : (observePeriod r.snapshot r.observedAt p).firstSeenAt = p.firstSeenAt := by
  unfold observePeriod
  split
  · rfl
  · split <;> rfl

theorem observePeriodEnded {at_ : Nat} (ended : p.endObservedAt = some at_) : observePeriod r.snapshot r.observedAt p = p :=
  if_pos (by simp [ended])

theorem observePeriodStops (active : p.endObservedAt = none) (stops : continues r.snapshot r.observedAt p = false) :
    (observePeriod r.snapshot r.observedAt p).endObservedAt = some r.observedAt := by
  rw [observePeriod,if_neg (by simp [active]),if_neg (by simp [stops])]

theorem observePeriodOpen : (observePeriod r.snapshot r.observedAt p).endObservedAt = none ↔
    continues r.snapshot r.observedAt p = true := by
  constructor
  · intro still
    by_contra stops
    cases ended : p.endObservedAt with
    | some at_ =>
      rw [observePeriodEnded ended,ended] at still
      cases still
    | none =>
      rw [observePeriodStops ended (by simpa using stops)] at still
      cases still
  · intro goes
    have active := (continuesSource goes).1
    rw [observePeriod,if_neg (by simp [active]),if_pos goes]
    exact active

theorem newPeriodSource {q : BndWaitingPeriod} (mem : q ∈ s.newPeriods r.snapshot r.observedAt) :
    ∃ order ∈ r.snapshot.orders, order.claimed = false ∧
      (∀ p ∈ s.periods, p.orderId = order.id → continues r.snapshot r.observedAt p = false) ∧
      q = { orderId := order.id, orderNumber := order.number, firstSeenAt := r.observedAt, lastSeenWaitingAt := r.observedAt } := by
  obtain ⟨order,kept,rfl⟩ := List.mem_map.mp mem
  obtain ⟨listed,fresh⟩ := List.mem_filter.mp kept
  simp only [Bool.and_eq_true,Bool.not_eq_true',decide_eq_true_eq,List.mem_map,List.mem_filter,not_exists,not_and] at fresh
  refine ⟨order,listed,fresh.1,fun p known same => ?_,rfl⟩
  by_contra goes
  exact fresh.2 p ⟨known,by simpa using goes⟩ same

theorem Sound.apartLater (h : Sound s taken) (later : ∀ x ∈ taken, x.observedAt < r.observedAt) :
    (s.periods.map (observePeriod r.snapshot r.observedAt) ++ s.newPeriods r.snapshot r.observedAt).Pairwise Apart := by
  refine List.pairwise_append.mpr ⟨?_,?_,?_⟩
  · refine List.pairwise_map.mpr (h.apart.imp fun {p q} apart same => ?_)
    obtain ⟨at_,ended,before⟩ := apart (by simpa using same)
    exact ⟨at_,by rw [observePeriodEnded ended,ended],by simpa using before⟩
  · refine List.pairwise_map.mpr (List.Pairwise.filter _ ?_)
    exact (List.pairwise_map.mp r.snapshot.distinct).imp fun differ same => absurd same differ
  · intro p' seen q fresh same
    obtain ⟨p,known,rfl⟩ := List.mem_map.mp seen
    obtain ⟨order,_,_,stops,rfl⟩ := newPeriodSource fresh
    rw [observePeriodOrder] at same
    cases ended : p.endObservedAt with
    | some at_ =>
      obtain ⟨_,x,mem,here⟩ := (h.periods p known).ended at_ ended
      exact ⟨at_,by rw [observePeriodEnded ended,ended],Nat.le_of_lt (here ▸ later x mem)⟩
    | none => exact ⟨r.observedAt,observePeriodStops ended (stops p known same),Nat.le_refl _⟩

theorem openPeriods (id : String) :
    (∃ p ∈ s.periods.map (observePeriod r.snapshot r.observedAt) ++ s.newPeriods r.snapshot r.observedAt,
      p.orderId = id ∧ p.endObservedAt = none) ↔ r.snapshot.Waits id := by
  constructor
  · rintro ⟨p',mem,rfl,active⟩
    rcases List.mem_append.mp mem with seen | fresh
    · obtain ⟨p,_,rfl⟩ := List.mem_map.mp seen
      rw [observePeriodOrder]
      exact (continuesSource (observePeriodOpen.mp active)).2.1
    · obtain ⟨order,listed,unclaimed,_,rfl⟩ := newPeriodSource fresh
      exact ⟨order,listed,rfl,unclaimed⟩
  · rintro ⟨order,listed,rfl,unclaimed⟩
    by_cases goes : ∃ p ∈ s.periods, p.orderId = order.id ∧ continues r.snapshot r.observedAt p = true
    · obtain ⟨p,known,same,goes⟩ := goes
      exact ⟨_,List.mem_append_left _ (List.mem_map_of_mem known),by rw [observePeriodOrder,same],observePeriodOpen.mpr goes⟩
    · refine ⟨_,List.mem_append_right _ (List.mem_map_of_mem (a := order) (List.mem_filter.mpr ⟨listed,?_⟩)),rfl,rfl⟩
      simp only [unclaimed,Bool.not_false,Bool.true_and,decide_eq_true_eq,List.mem_map,List.mem_filter]
      rintro ⟨p,⟨known,continuing⟩,same⟩
      exact goes ⟨p,known,same,continuing⟩

theorem Sound.record (h : Sound s taken) : Sound (s.recordBndSnapshot r.snapshot r.observedAt)
    (if taken.any fun earlier => r.observedAt ≤ earlier.observedAt then taken else r::taken) := by
  rw [recordBndSnapshot,h.latest]
  split
  · exact h
  rename_i newest
  have later : ∀ x ∈ taken, x.observedAt < r.observedAt := by simpa using newest
  refine ⟨by simp [h.checks],List.pairwise_cons.mpr ⟨later,h.increasing⟩,?_,h.apartLater later,?_⟩
  · intro p mem
    rcases List.mem_append.mp mem with seen | fresh
    · obtain ⟨p,known,rfl⟩ := List.mem_map.mp seen
      exact (h.periods p known).observe h.increasing later
    · obtain ⟨order,listed,unclaimed,_,rfl⟩ := newPeriodSource fresh
      exact .begin_ listed unclaimed later
  · rintro _ ⟨⟩ id
    exact openPeriods id

theorem emptySound : Sound empty [] := ⟨rfl,.nil,nofun,.nil,nofun⟩

theorem recordAllSound (calls : List BndRecording) : Sound (recordAll calls) (recorded calls) := by
  suffices ∀ s taken, Sound s taken → Sound (calls.foldl (fun s r => s.recordBndSnapshot r.snapshot r.observedAt) s)
      (calls.foldl (fun taken r => if taken.any fun earlier => r.observedAt ≤ earlier.observedAt then taken else r::taken) taken) from
    this _ _ emptySound
  induction calls with
  | nil => exact fun _ _ h => h
  | cons r calls ih => exact fun s taken h => ih _ _ h.record

def openPeriodsOf (s : BndHistory) (id : String) : List BndWaitingPeriod :=
  s.periods.filter fun p => p.orderId = id && p.endObservedAt.isNone

theorem Sound.oneOpen (h : Sound s taken) (id : String) : (s.openPeriodsOf id).length ≤ 1 := by
  have apart := h.apart.sublist (List.filter_sublist (p := fun p => p.orderId = id && p.endObservedAt.isNone))
  have active : ∀ p ∈ s.openPeriodsOf id, p.orderId = id ∧ p.endObservedAt = none := by
    intro p mem
    simpa using (List.mem_filter.mp mem).2
  change (s.openPeriodsOf id).Pairwise Apart at apart
  cases shape : s.openPeriodsOf id with
  | nil => exact Nat.zero_le 1
  | cons p rest =>
    cases rest with
    | nil => exact Nat.le_refl 1
    | cons q rest =>
      rw [shape] at apart active
      obtain ⟨mine,still⟩ := active p List.mem_cons_self
      have other := (active q (by simp)).1
      obtain ⟨at_,ended,_⟩ := List.rel_of_pairwise_cons apart List.mem_cons_self (mine.trans other.symm)
      rw [still] at ended
      cases ended

/-- Whatever snapshots are recorded, in whatever order they arrive. -/
theorem waitingHistory (calls : List BndRecording) :
    (recordAll calls).checks.map (·.checkedAt) = (recorded calls).map (·.observedAt) ∧
    (∀ id, ((recordAll calls).openPeriodsOf id).length ≤ 1) ∧
    (recordAll calls).periods.Pairwise Apart ∧
    (∀ p ∈ (recordAll calls).periods, PeriodSound (recorded calls) p) ∧
    ∀ r, (recorded calls).head? = some r → ∀ id, (∃ p ∈ (recordAll calls).periods, p.orderId = id ∧ p.endObservedAt = none) ↔
      r.snapshot.Waits id :=
  have sound := recordAllSound calls
  ⟨sound.checks,sound.oneOpen,sound.apart,sound.periods,sound.waiting⟩

end BndHistory
end SpeedySweeties
