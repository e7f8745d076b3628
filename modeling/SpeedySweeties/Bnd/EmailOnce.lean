import SpeedySweeties.Bnd.EmailAlerts

/-! A receipt only moves forward: it is claimed at growing times while it is not marked as
sent, and every claim lies within the retry window of its creation. An hour later the last
request has arrived, before the provider forgets the first. -/
namespace SpeedySweeties
namespace BndEmail
namespace EmailSystem

def keyOf (id : String) : String := "bnd-waiting-order/" ++ id

theorem keyOfInjective {id other : String} (same : keyOf id = keyOf other) : id = other := by
  exact (String.append_right_inj _).mp same

theorem idempotencyKeyOf (order : BndPendingOrder) : idempotencyKey order = keyOf order.id := rfl

/-- A receipt and the same receipt later. -/
structure AlertLater (a b : BndEmailAlert) : Prop where
  key : b.orderId = a.orderId
  created : b.createdAt = a.createdAt
  unsent : b.sentAt = none → a.sentAt = none
  claimed : b.sentAt = none → ∀ at_, a.claimedAt = some at_ → ∃ last, b.claimedAt = some last ∧ at_ ≤ last

theorem AlertLater.refl (a : BndEmailAlert) : AlertLater a a := ⟨rfl,rfl,id,fun _ at_ is => ⟨at_,is,Nat.le_refl _⟩⟩

def AlertsLater (t u : BndEmailAlerts) : Prop := ∀ id a, t.find id = some a → ∃ b, u.find id = some b ∧ AlertLater a b

theorem AlertsLater.refl (t : BndEmailAlerts) : AlertsLater t t := fun _ a found => ⟨a,found,.refl a⟩

theorem AlertsLater.replace {t : BndEmailAlerts} {id : String} {a row : BndEmailAlert} (found : t.find id = some a)
    (later : AlertLater a row) : AlertsLater t (t.put row) ∧ (t.put row).find id = some row := by
  obtain rfl : row.orderId = id := later.key.trans (Table.find_key found)
  refine ⟨fun other b there => ?_,Table.find_put_self t row⟩
  by_cases mine : other = row.orderId
  · subst mine
    cases Option.some.inj (found.symm.trans there)
    exact ⟨row,Table.find_put_self t row,later⟩
  · exact ⟨b,(Table.find_put_other mine).trans there,.refl b⟩

theorem AlertsLater.insert {t : BndEmailAlerts} {row : BndEmailAlert} (fresh : t.find row.orderId = none) :
    AlertsLater t (t.put row) := by
  intro id a there
  refine ⟨a,(Table.find_put_other fun mine => ?_).trans there,.refl a⟩
  rw [mine,fresh] at there
  cases there

def EventSound (s : EmailSystem) : Event → Prop
  | .claimed c => ∃ a, s.alerts.find c.order.id = some a ∧ c.claimedAt ≤ a.createdAt + retryWindowMs ∧
      (a.sentAt = none → ∃ last, a.claimedAt = some last ∧ c.claimedAt ≤ last)
  | .marked id => ∃ a, s.alerts.find id = some a ∧ a.sentAt ≠ none

/-- Claims of one receipt are apart, and none follows its mark. -/
def Spaced : Event → Event → Prop
  | .claimed later,.claimed earlier => later.order.id = earlier.order.id → earlier.claimedAt + claimMs ≤ later.claimedAt
  | .claimed later,.marked id => later.order.id ≠ id
  | .marked _,_ => True

def StageSound (s : EmailSystem) : Stage → Prop
  | .upserting _ now _ _ => now ≤ s.now
  | .claiming receipt _ _ _ => ∃ a, s.alerts.find receipt.id = some a
  | .rechecking claim _ _ | .sending claim _ _ | .marking claim _ _ _ => .claimed claim ∈ s.log
  | .enabling | .next _ _ => True

structure Sound (s : EmailSystem) : Prop where
  created : ∀ a ∈ s.alerts.rows, a.createdAt ≤ s.now
  stages : ∀ p stage, s.checks p = some stage → StageSound s stage
  events : ∀ e ∈ s.log, EventSound s e
  spaced : s.log.Pairwise Spaced
  inFlight : ∀ c ∈ s.inFlight, .claimed c ∈ s.log

structure Mailed (s : EmailSystem) : Prop where
  received : ∀ id at_, s.received (keyOf id) = some at_ → ∃ a, s.alerts.find id = some a ∧ a.createdAt ≤ at_
  once : ∀ id, s.emails.count id ≤ 1
  mailed : ∀ id ∈ s.emails, s.received (keyOf id) ≠ none

variable {s t : EmailSystem} {a : BndEmailAlert}

theorem EventSound.later {e : Event} (h : EventSound s e) (alerts : AlertsLater s.alerts t.alerts) : EventSound t e := by
  cases e with
  | claimed c =>
    obtain ⟨a,found,window,claimed⟩ := h
    obtain ⟨b,there,later⟩ := alerts _ a found
    refine ⟨b,there,later.created ▸ window,fun unsent => ?_⟩
    obtain ⟨at_,is,before⟩ := claimed (later.unsent unsent)
    obtain ⟨last,now,after_⟩ := later.claimed unsent at_ is
    exact ⟨last,now,Nat.le_trans before after_⟩
  | marked id =>
    obtain ⟨a,found,sent⟩ := h
    obtain ⟨b,there,later⟩ := alerts _ a found
    exact ⟨b,there,fun unsent => sent (later.unsent unsent)⟩

theorem StageSound.later {stage : Stage} (h : StageSound s stage) (clock : s.now ≤ t.now)
    (alerts : AlertsLater s.alerts t.alerts) (log : s.log ⊆ t.log) : StageSound t stage := by
  cases stage with
  | enabling | next => trivial
  | upserting => exact Nat.le_trans h clock
  | claiming receipt now rest n =>
    obtain ⟨a,found⟩ := h
    obtain ⟨b,there,_⟩ := alerts _ a found
    exact ⟨b,there⟩
  | rechecking | sending | marking => exact log h

/-- A step apart from the provider's. -/
structure Moved (s t : EmailSystem) : Prop where
  clock : s.now ≤ t.now
  alerts : AlertsLater s.alerts t.alerts
  created : ∀ a ∈ t.alerts.rows, a.createdAt ≤ t.now
  log : t.log = s.log ∨ ∃ e, t.log = e::s.log ∧ EventSound t e ∧ ∀ earlier ∈ s.log, Spaced e earlier
  stages : ∀ p stage, t.checks p = some stage → s.checks p = some stage ∨ StageSound t stage
  inFlight : ∀ c ∈ t.inFlight, c ∈ s.inFlight ∨ .claimed c ∈ t.log
  received : t.received = s.received
  emails : t.emails = s.emails

theorem Moved.grown (h : Moved s t) : s.log ⊆ t.log := by
  rcases h.log with same | ⟨e,more,_⟩
  · exact same ▸ List.Subset.refl _
  · exact more ▸ List.subset_cons_self _ _

theorem Sound.moved (h : Sound s) (m : Moved s t) : Sound t where
  created := m.created
  stages p stage at_ := by
    rcases m.stages p stage at_ with old | new
    · exact (h.stages p stage old).later m.clock m.alerts m.grown
    · exact new
  events e mem := by
    rcases m.log with same | ⟨d,more,sound,_⟩
    · exact (h.events e (same ▸ mem)).later m.alerts
    · rw [more] at mem
      rcases List.mem_cons.mp mem with rfl | mem
      · exact sound
      · exact (h.events e mem).later m.alerts
  spaced := by
    rcases m.log with same | ⟨d,more,_,apart⟩
    · exact same ▸ h.spaced
    · exact more ▸ List.pairwise_cons.mpr ⟨apart,h.spaced⟩
  inFlight c mem := by
    rcases m.inFlight c mem with old | new
    · exact m.grown (h.inFlight c old)
    · exact new

theorem Mailed.moved (h : Mailed s) (m : Moved s t) : Mailed t where
  received id at_ is := by
    rw [m.received] at is
    obtain ⟨a,found,before⟩ := h.received id at_ is
    obtain ⟨b,there,later⟩ := m.alerts id a found
    exact ⟨b,there,later.created ▸ before⟩
  once := m.emails ▸ h.once
  mailed := by
    rw [m.emails,m.received]
    exact h.mailed

/-! ### The store's operations -/

theorem upsertSource (alerts : BndEmailAlerts) (order : BndPendingOrder) (now : Nat) :
    AlertsLater alerts (upsertReceipt alerts order now).1 ∧
      (upsertReceipt alerts order now).1.find (upsertReceipt alerts order now).2.orderId = some (upsertReceipt alerts order now).2 ∧
      ∀ a ∈ (upsertReceipt alerts order now).1.rows, a ∈ alerts.rows ∨ a.createdAt = now := by
  unfold upsertReceipt
  split
  · rename_i receipt found
    exact ⟨.refl _,Table.find_self found,fun a mem => .inl mem⟩
  · rename_i absent
    refine ⟨.insert absent,Table.find_put_self _ _,fun a mem => ?_⟩
    rcases Table.mem_put mem with rfl | ⟨old,_⟩
    · exact .inr rfl
    · exact .inl old

theorem claimSource {alerts later : BndEmailAlerts} {id : String} {now : Nat} (ok : claimReceipt alerts id now = some later) :
    ∃ a, alerts.find id = some a ∧ a.sentAt = none ∧ now ≤ a.createdAt + retryWindowMs ∧
      (∀ at_, a.claimedAt = some at_ → at_ + claimMs ≤ now) ∧ later = alerts.put { a with claimedAt := some now } := by
  obtain ⟨a,found,ok⟩ := Option.bind_eq_some_iff.mp ok
  split at ok <;> cases ok
  rename_i free
  simp only [claimable,Bool.and_eq_true,Option.isNone_iff_eq_none,decide_eq_true_eq,Option.all_eq_true] at free
  obtain ⟨⟨unsent,window⟩,apart⟩ := free
  exact ⟨a,found,unsent,window,apart,rfl⟩

theorem markSource {alerts later : BndEmailAlerts} {claim : EmailClaim} {now : Nat} (ok : markSent alerts claim now = some later) :
    ∃ a, alerts.find claim.order.id = some a ∧ later = alerts.put { a with sentAt := some now, claimedAt := none } := by
  obtain ⟨a,found,ok⟩ := Option.bind_eq_some_iff.mp ok
  split at ok <;> cases ok
  exact ⟨a,found,rfl⟩

/-! ### Steps -/

theorem Sound.still (h : Sound s) : Moved s s :=
  ⟨Nat.le_refl _,.refl _,h.created,.inl rfl,fun _ _ at_ => .inl at_,fun _ mem => .inl mem,rfl,rfl⟩

theorem Moved.goto (m : Moved s t) (p : Nat) {next : Option Stage} (sound : ∀ stage, next = some stage → StageSound t stage) :
    Moved s (t.goto p next) where
  clock := m.clock
  alerts := m.alerts
  created := m.created
  log := m.log
  stages q stage at_ := by
    by_cases mine : q = p
    · subst mine
      exact .inr (sound stage (by simpa [EmailSystem.goto] using at_))
    · rcases m.stages q stage (by simpa [EmailSystem.goto,Function.update_of_ne mine] using at_) with old | new
      · exact .inl old
      · exact .inr new
  inFlight := m.inFlight
  received := m.received
  emails := m.emails

theorem Sound.upsert (h : Sound s) (order : BndPendingOrder) {now : Nat} (past : now ≤ s.now) :
    Moved s { s with alerts := (upsertReceipt s.alerts order now).1 } where
  clock := Nat.le_refl _
  alerts := (upsertSource s.alerts order now).1
  created a mem := by
    rcases (upsertSource s.alerts order now).2.2 a mem with old | rfl
    · exact h.created a old
    · exact past
  log := .inl rfl
  stages _ _ at_ := .inl at_
  inFlight _ mem := .inl mem
  received := rfl
  emails := rfl

theorem Sound.createdPut (h : Sound s) {id : String} {row : BndEmailAlert} (found : s.alerts.find id = some a)
    (created : row.createdAt = a.createdAt) : ∀ b ∈ (s.alerts.put row).rows, b.createdAt ≤ s.now := by
  intro b mem
  rcases Table.mem_put mem with rfl | ⟨old,_⟩
  · exact created ▸ h.created a (Table.find_some found).1
  · exact h.created b old

theorem Sound.claim (h : Sound s) {receipt : BndPendingOrder} {now : Nat} {alerts : BndEmailAlerts}
    (ok : claimReceipt s.alerts receipt.id now = some alerts) :
    Moved s { s with alerts, log := .claimed ⟨receipt,now⟩::s.log } := by
  obtain ⟨a,found,unsent,window,apart,rfl⟩ := claimSource ok
  have later : AlertLater a { a with claimedAt := some now } := by
    refine ⟨rfl,rfl,id,fun _ at_ is => ⟨now,rfl,?_⟩⟩
    have := apart at_ is
    omega
  obtain ⟨alerts,there⟩ := AlertsLater.replace found later
  refine ⟨Nat.le_refl _,alerts,h.createdPut found rfl,.inr ⟨_,rfl,?_,fun e mem => ?_⟩,
    fun _ _ at_ => .inl at_,fun _ mem => .inl mem,rfl,rfl⟩
  · exact ⟨_,there,window,fun _ => ⟨now,rfl,Nat.le_refl _⟩⟩
  have sound := h.events e mem
  cases e with
  | claimed c =>
    intro same
    obtain ⟨b,known,_,held⟩ := sound
    rw [← same,found] at known
    cases Option.some.inj known
    obtain ⟨last,is,before⟩ := held unsent
    exact Nat.le_trans (Nat.add_le_add_right before claimMs) (apart last is)
  | marked id =>
    rintro rfl
    obtain ⟨b,known,sent⟩ := sound
    cases Option.some.inj (found.symm.trans known)
    exact sent unsent

theorem Sound.mark (h : Sound s) {claim : EmailClaim} {now : Nat} {alerts : BndEmailAlerts}
    (ok : markSent s.alerts claim now = some alerts) :
    Moved s { s with alerts, log := .marked claim.order.id::s.log } := by
  obtain ⟨a,found,rfl⟩ := markSource ok
  have later : AlertLater a { a with sentAt := some now, claimedAt := none } :=
    ⟨rfl,rfl,fun unsent => (Option.some_ne_none _ unsent).elim,fun unsent => (Option.some_ne_none _ unsent).elim⟩
  obtain ⟨alerts,there⟩ := AlertsLater.replace found later
  exact ⟨Nat.le_refl _,alerts,h.createdPut found rfl,
    .inr ⟨_,rfl,⟨_,there,Option.some_ne_none _⟩,fun e _ => by cases e <;> trivial⟩,
    fun _ _ at_ => .inl at_,fun _ mem => .inl mem,rfl,rfl⟩

theorem attemptedSound {rest : List BndPendingOrder} {n : Nat} : ∀ stage, attempted rest n = some stage → StageSound t stage := by
  intro stage is
  unfold attempted at is
  split at is <;> cases is
  trivial

theorem acceptCases (s : EmailSystem) (claim : EmailClaim) :
    (∃ at_, s.received (keyOf claim.order.id) = some at_ ∧ s.accept claim = s) ∨
      (∀ at_, s.received (keyOf claim.order.id) = some at_ → at_ + keyRetentionMs < s.now) ∧
        s.accept claim = { s with
          received := Function.update s.received (keyOf claim.order.id) (some s.now), emails := claim.order.id::s.emails } := by
  unfold accept
  rw [idempotencyKeyOf]
  dsimp only
  split
  · rename_i remembered
    obtain ⟨at_,known,_⟩ := (Option.any_eq_true _ _).mp remembered
    exact .inl ⟨at_,known,rfl⟩
  · rename_i forgotten
    refine .inr ⟨fun at_ known => ?_,rfl⟩
    simpa [known] using forgotten

theorem Sound.deliver (h : Sound s) {claim : EmailClaim} : Sound ({ s with inFlight := s.inFlight.erase claim }.accept claim) := by
  have rest : ∀ c ∈ s.inFlight.erase claim, Event.claimed c ∈ s.log := fun c mem => h.inFlight c (List.mem_of_mem_erase mem)
  rcases acceptCases { s with inFlight := s.inFlight.erase claim } claim with ⟨_,_,same⟩ | ⟨_,mails⟩
  · rw [same]
    exact ⟨h.created,h.stages,h.events,h.spaced,rest⟩
  · rw [mails]
    exact ⟨h.created,h.stages,h.events,h.spaced,rest⟩

theorem Mailed.deliver (h : Mailed s) (sound : Sound s) {claim : EmailClaim} (sent : claim ∈ s.inFlight)
    (timely : s.now ≤ claim.claimedAt + hourMs) : Mailed ({ s with inFlight := s.inFlight.erase claim }.accept claim) := by
  obtain ⟨a,found,window,_⟩ := sound.events _ (sound.inFlight claim sent)
  have born := sound.created a (Table.find_some found).1
  rcases acceptCases { s with inFlight := s.inFlight.erase claim } claim with ⟨_,_,same⟩ | ⟨forgotten,mails⟩
  · rw [same]
    exact ⟨h.received,h.once,h.mailed⟩
  have first : s.received (keyOf claim.order.id) = none := by
    cases known : s.received (keyOf claim.order.id) with
    | none => rfl
    | some at_ =>
      obtain ⟨b,there,after_⟩ := h.received _ at_ known
      cases Option.some.inj (found.symm.trans there)
      have := forgotten at_ known
      simp only [keyRetentionMs,hourMs,retryWindowMs] at this window timely
      omega
  have unmailed : claim.order.id ∉ s.emails := fun mailed => h.mailed _ mailed first
  rw [mails]
  refine ⟨fun id at_ is => ?_,fun id => ?_,fun id mem => ?_⟩
  · dsimp only at is
    by_cases mine : id = claim.order.id
    · subst mine
      rw [Function.update_self] at is
      cases is
      exact ⟨a,found,born⟩
    · rw [Function.update_of_ne fun same => mine (keyOfInjective same)] at is
      exact h.received id at_ is
  · rw [List.count_cons]
    by_cases mine : claim.order.id = id
    · subst mine
      simp [List.count_eq_zero.mpr unmailed]
    · simpa [mine] using h.once id
  · dsimp only
    by_cases mine : id = claim.order.id
    · subst mine
      rw [Function.update_self]
      exact Option.some_ne_none _
    · rw [Function.update_of_ne fun same => mine (keyOfInjective same)]
      exact h.mailed id ((List.mem_cons.mp mem).resolve_left mine)

theorem Sound.step (h : Sound s) {a : Action} (taken : s.step a = some t) :
    Moved s t ∨ ∃ claim ∈ s.inFlight, a = .deliver claim ∧ t = { s with inFlight := s.inFlight.erase claim }.accept claim := by
  cases a with
  | tick elapsed =>
    cases taken
    exact .inl ⟨Nat.le_add_right _ _,.refl _,fun b mem => Nat.le_trans (h.created b mem) (Nat.le_add_right _ _),.inl rfl,
      fun _ _ at_ => .inl at_,fun _ mem => .inl mem,rfl,rfl⟩
  | stop p =>
    cases taken
    exact .inl ⟨Nat.le_refl _,.refl _,h.created,.inl rfl,fun _ _ at_ => .inl at_,fun _ mem => .inl mem,rfl,rfl⟩
  | crash p =>
    cases taken
    exact .inl (h.still.goto p nofun)
  | check p status =>
    simp only [EmailSystem.step] at taken
    split at taken
    · cases taken
    split at taken <;> cases taken
    · exact .inl h.still
    · exact .inl (h.still.goto p fun _ is => by cases is; trivial)
  | readEnabled p enabled status =>
    simp only [EmailSystem.step] at taken
    split at taken <;> cases taken
    refine .inl (h.still.goto p fun stage is => ?_)
    split at is <;> cases is
    trivial
  | next p enabled status =>
    simp only [EmailSystem.step] at taken
    split at taken
    · cases taken
      exact .inl (h.still.goto p nofun)
    · split at taken
      · cases taken
        exact .inl (h.still.goto p nofun)
      split at taken <;> cases taken
      · exact .inl (h.still.goto p fun _ is => by cases is; trivial)
      · exact .inl (h.still.goto p fun _ is => by cases is; exact Nat.le_refl _)
    · cases taken
  | upsert p =>
    simp only [EmailSystem.step] at taken
    split at taken <;> cases taken
    rename_i order now rest n here
    refine .inl ((h.upsert order (h.stages p _ here)).goto p fun stage is => ?_)
    cases is
    exact ⟨_,(upsertSource s.alerts order now).2.1⟩
  | claim p acknowledged =>
    simp only [EmailSystem.step] at taken
    split at taken
    · split at taken <;> cases taken
      · exact .inl (h.still.goto p fun _ is => by cases is; trivial)
      · rename_i ok
        refine .inl ((h.claim ok).goto p fun stage is => ?_)
        split at is <;> cases is
        exact List.mem_cons_self
    · cases taken
  | recheck p enabled status =>
    simp only [EmailSystem.step] at taken
    split at taken
    · rename_i claim rest n here
      split at taken
      · cases taken
        exact .inl (h.still.goto p nofun)
      split at taken <;> cases taken
      · exact .inl (h.still.goto p fun _ is => by cases is; trivial)
      · have sent : Moved s { s with inFlight := claim::s.inFlight } := { h.still with
          inFlight := fun c mem => (List.mem_cons.mp mem).elim (fun same => .inr (same ▸ h.stages p _ here)) .inl }
        exact .inl (sent.goto p fun _ is => by cases is; exact h.stages p _ here)
    · cases taken
  | answered p accepted =>
    simp only [EmailSystem.step] at taken
    split at taken <;> cases taken
    rename_i claim rest n here
    refine .inl (h.still.goto p fun stage is => ?_)
    split at is
    · cases is
      have claimed : Event.claimed claim ∈ s.log := h.stages p _ here
      exact claimed
    · exact attemptedSound stage is
  | mark p arrives =>
    simp only [EmailSystem.step] at taken
    split at taken
    · split at taken <;> cases taken
      · exact .inl (h.still.goto p attemptedSound)
      · rename_i ok
        split at ok
        · exact .inl ((h.mark ok).goto p attemptedSound)
        · cases ok
    · cases taken
  | deliver claim =>
    simp only [EmailSystem.step] at taken
    split at taken <;> cases taken
    rename_i sent
    exact .inr ⟨claim,sent,rfl,rfl⟩

theorem Sound.kept (h : Sound s) {a : Action} (taken : s.step a = some t) : Sound t := by
  rcases h.step taken with moved | ⟨claim,_,_,rfl⟩
  · exact h.moved moved
  · exact h.deliver

theorem Mailed.kept (h : Mailed s) (sound : Sound s) {a : Action} (timely : s.Timely a) (taken : s.step a = some t) : Mailed t := by
  rcases sound.step taken with moved | ⟨claim,sent,rfl,rfl⟩
  · exact h.moved moved
  · exact h.deliver sound sent timely

theorem initialSound (now : Nat) : Sound (initial now) :=
  ⟨fun _ mem => absurd mem List.not_mem_nil,nofun,nofun,.nil,nofun⟩

/-- Any run, and the emails of any run whose sends arrive within an hour of their claims. -/
theorem emailedOnce (now : Nat) :
    (∀ s, Transition.Reachable step (initial now) s →
      s.log.Pairwise Spaced ∧
      (∀ c, .claimed c ∈ s.log → ∃ a, s.alerts.find c.order.id = some a ∧ c.claimedAt ≤ a.createdAt + retryWindowMs) ∧
      ∀ c ∈ s.inFlight, idempotencyKey c.order = keyOf c.order.id ∧ .claimed c ∈ s.log) ∧
    ∀ s, Transition.ReachableUnder step Timely (initial now) s → ∀ id, s.emails.count id ≤ 1 := by
  constructor
  · intro s reached
    have sound : Sound s := reached.invariant (initialSound now) fun _ _ _ sound taken => sound.kept taken
    refine ⟨sound.spaced,fun c mem => ?_,fun c mem => ⟨rfl,sound.inFlight c mem⟩⟩
    obtain ⟨a,found,window,_⟩ := sound.events _ mem
    exact ⟨a,found,window⟩
  · intro s reached
    have mailed : Mailed (initial now) := ⟨nofun,fun _ => Nat.zero_le 1,nofun⟩
    have both : Sound s ∧ Mailed s := Transition.ReachableUnder.invariant (I := fun s => Sound s ∧ Mailed s) reached
      ⟨initialSound now,mailed⟩ fun _ _ _ held timely taken => ⟨held.1.kept taken,held.2.kept held.1 timely taken⟩
    exact both.2.once

/-! A crash after the email was accepted: the next claim sends it again under the same key. -/

def sampleOrder : BndPendingOrder := ⟨"1","1001"⟩

def sampleStatus (now : Nat) : MonitorStatus := ⟨true,some now,[sampleOrder]⟩

def sampleSend (p now : Nat) : List Action :=
  [.check p (sampleStatus now),.readEnabled p true (sampleStatus now),.next p true (sampleStatus now),.upsert p,.claim p true,
    .recheck p true (sampleStatus now),.deliver ⟨sampleOrder,now⟩]

def sampleRun : List Action :=
  sampleSend 0 7 ++ [Action.crash 0,.tick claimMs] ++ sampleSend 1 (7 + claimMs) ++ [Action.answered 1 true,.mark 1 true]

theorem emailedOnceAfterCrash : ∃ s, Transition.ReachableUnder step Timely (initial 7) s ∧ s.log.Pairwise Spaced ∧
    s.log.length = 3 ∧ s.emails = ["1"] ∧ s.emails.count "1" ≤ 1 := by
  have ends : (Transition.run step (initial 7) sampleRun).map (fun s => (s.log.length,s.emails)) = some (3,["1"]) := by
    decide +kernel
  obtain ⟨s,ran,shape⟩ := Option.map_eq_some_iff.mp ends
  obtain ⟨length,emails⟩ := Prod.mk.inj shape
  have allowed : Transition.AllowedRun step Timely (initial 7) sampleRun := by decide +kernel
  have reached := Transition.runReachableUnder .start allowed ran
  exact ⟨s,reached,((emailedOnce 7).1 s reached.reachable).1,length,emails,(emailedOnce 7).2 s reached "1"⟩

end EmailSystem
end BndEmail
end SpeedySweeties
