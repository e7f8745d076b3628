import SpeedySweeties.Retention.System

/-! A message is sent at most once, a phone at most once in ninety days, and none after its
opt-out: the lock on the setting makes the attempts of a phone a chain, the guarded claim
gives each message one sender, and the setting is read again between claim and send. -/
namespace SpeedySweeties
namespace Retention

/-- What a worker has read under the lock of a phone. -/
def Worker.held : Worker → Option (String × RecipientState)
  | .campaign _ _ (.deciding t state _) | .campaign _ _ (.stopping t _ (some state) _) => some (t.phone,state)
  | .stop phone _ (some state) => some (phone,state)
  | _ => none

/-- A claim whose message has not been sent. -/
def Worker.unsent : Worker → Option (Target × Nat)
  | .campaign _ now (.checking t _) | .campaign _ now (.suppressing t _) | .campaign _ now (.sending t _) => some (t,now)
  | _ => none

def Worker.ready : Worker → Option Target
  | .campaign _ _ (.sending t _) => some t
  | _ => none

/-- Two claims: never of one message, and of one phone only ninety days apart. -/
def Spaced (e e' : Event) : Prop :=
  ∀ id phone now id' phone' now', e = .claimed id phone now → e' = .claimed id' phone' now' →
    id ≠ id' ∧ (phone = phone' → now + 90*dayMs ≤ now' ∨ now' + 90*dayMs ≤ now)

instance : Std.Symm Spaced := ⟨fun _ _ h id phone now id' phone' now' same same' =>
  have ⟨differ,apart⟩ := h id' phone' now' id phone now same' same
  ⟨differ.symm,fun eq => (apart eq.symm).symm⟩⟩

def Event.sends (id : String) : Event → Bool
  | .sent other _ _ => other = id
  | _ => false

/-- Neither a claim nor a send. -/
def Event.plain : Event → Prop
  | .claimed _ _ _ | .sent _ _ _ => False
  | _ => True

/-- A check of the phone before which no opt-out of it was committed. -/
def Checked (log : List Event) (id phone : String) : Prop :=
  ∃ newer older, log = newer ++ .checked id phone::older ∧ .optedOut phone ∉ older

theorem Checked.cons {log : List Event} {id phone : String} (h : Checked log id phone) (e : Event) : Checked (e::log) id phone := by
  obtain ⟨newer,older,rfl,none⟩ := h
  exact ⟨e::newer,older,rfl,none⟩

namespace System
variable {D : Deployment} {s : System}

structure Sound (D : Deployment) (s : System) : Prop where
  held : ∀ w x phone state, s.workers w = some x → x.held = some (phone,state) →
    s.locks (recipientKey D phone) = some w ∧ (s.setting D phone).getD {} = state
  attempts : ∀ id phone now, .claimed id phone now ∈ s.log → ∃ state at_, s.setting D phone = some state ∧
    state.lastAttemptAt = some at_ ∧ now ≤ at_
  optedOut : ∀ phone, .optedOut phone ∈ s.log → ∃ state, s.setting D phone = some state ∧ state.optedOut = true
  attempted : ∀ id phone now, .claimed id phone now ∈ s.log → ∃ m, s.messages.find id = some m ∧ m.attemptedAt ≠ none
  spaced : s.log.Pairwise Spaced
  unsent : ∀ w x t now, s.workers w = some x → x.unsent = some (t,now) → .claimed t.message.id t.phone now ∈ s.log ∧
    ∀ e ∈ s.log, e.sends t.message.id = false
  alone : ∀ w w' x x' t t' now now', s.workers w = some x → s.workers w' = some x' → x.unsent = some (t,now) →
    x'.unsent = some (t',now') → t.message.id = t'.message.id → w = w'
  ready : ∀ w x t, s.workers w = some x → x.ready = some t → Checked s.log t.message.id t.phone
  sentClaimed : ∀ id phone now, .sent id phone now ∈ s.log → .claimed id phone now ∈ s.log
  once : s.log.Pairwise fun later earlier => ∀ id, earlier.sends id = true → later.sends id = false
  checks : ∀ newer id phone now older, s.log = newer ++ .sent id phone now::older → Checked older id phone

/-- What a worker may become in a step that neither locks, claims nor sends. -/
def Idle (s : System) (w : Nat) (x : Worker) : Prop :=
  x.held = none ∧ (∀ p, x.unsent = some p → ∃ old, s.workers w = some old ∧ old.unsent = some p) ∧
    ∀ t, x.ready = some t → Checked s.log t.message.id t.phone

theorem gotoCases {w v : Nat} {worker : Option Worker} {x : Worker} (at_ : (s.goto w worker).workers v = some x) :
    (v = w ∧ worker = some x) ∨ (v ≠ w ∧ s.workers v = some x) := by
  by_cases mine : v = w
  · subst mine
    exact .inl ⟨rfl,by simpa [goto] using at_⟩
  · exact .inr ⟨mine,by simpa [goto,Function.update_of_ne mine] using at_⟩

theorem Sound.goto (h : Sound D s) (w : Nat) {worker : Option Worker} (idle : ∀ x, worker = some x → Idle s w x) :
    Sound D (s.goto w worker) := by
  have unsent : ∀ v x p, (s.goto w worker).workers v = some x → x.unsent = some p → ∃ old, s.workers v = some old ∧ old.unsent = some p := by
    intro v x p at_ claims
    rcases gotoCases at_ with ⟨rfl,same⟩ | ⟨_,old⟩
    · exact (idle x same).2.1 p claims
    · exact ⟨x,old,claims⟩
  exact {
    h with
    held := fun v x phone state at_ holds => by
      rcases gotoCases at_ with ⟨rfl,same⟩ | ⟨_,old⟩
      · rw [(idle x same).1] at holds
        cases holds
      · exact h.held v x phone state old holds
    unsent := fun v x t now at_ claims => by
      obtain ⟨old,there,same⟩ := unsent v x _ at_ claims
      exact h.unsent v old t now there same
    alone := fun v v' x x' t t' now now' at_ at' claims claims' same => by
      obtain ⟨old,there,claim⟩ := unsent v x _ at_ claims
      obtain ⟨old',there',claim'⟩ := unsent v' x' _ at' claims'
      exact h.alone v v' old old' t t' now now' there there' claim claim' same
    ready := fun v x t at_ ready => by
      rcases gotoCases at_ with ⟨rfl,same⟩ | ⟨_,old⟩
      · exact (idle x same).2.2 t ready
      · exact h.ready v x t old ready }

theorem Sound.lock (h : Sound D s) (w : Nat) {x : Worker} {phone : String} {state : RecipientState}
    (free : s.lockedRecipient (recipientKey D phone) = some state) (holds : x.held = some (phone,state))
    (unsent : x.unsent = none) (ready : x.ready = none) : Sound D ((s.holdLock (recipientKey D phone) w).goto w (some x)) := by
  have unlocked : s.locks (recipientKey D phone) = none ∧ (s.setting D phone).getD {} = state := by
    unfold lockedRecipient at free
    split at free
    · cases free
    · exact ⟨by assumption,Option.some.inj free⟩
  exact {
    h with
    held := fun v y phone' state' at_ holds' => by
      rcases gotoCases at_ with ⟨rfl,same⟩ | ⟨differ,old⟩
      · cases same
        cases holds.symm.trans holds'
        exact ⟨Function.update_self ..,unlocked.2⟩
      · have ⟨locked,read⟩ := h.held v y phone' state' old holds'
        have other : recipientKey D phone' ≠ recipientKey D phone := by
          intro same
          rw [same,unlocked.1] at locked
          cases locked
        exact ⟨(Function.update_of_ne other _ _).trans locked,read⟩
    unsent := fun v y t now at_ claims => by
      rcases gotoCases at_ with ⟨rfl,same⟩ | ⟨_,old⟩
      · cases same
        cases unsent.symm.trans claims
      · exact h.unsent v y t now old claims
    alone := fun v v' y y' t t' now now' at_ at' claims claims' same => by
      rcases gotoCases at_ with ⟨rfl,new⟩ | ⟨_,old⟩
      · cases new
        cases unsent.symm.trans claims
      rcases gotoCases at' with ⟨rfl,new⟩ | ⟨_,old'⟩
      · cases new
        cases unsent.symm.trans claims'
      exact h.alone v v' y y' t t' now now' old old' claims claims' same
    ready := fun v y t at_ is => by
      rcases gotoCases at_ with ⟨rfl,same⟩ | ⟨_,old⟩
      · cases same
        cases ready.symm.trans is
      · exact h.ready v y t old is }

theorem Sound.unlock (h : Sound D s) (w : Nat) (idle : ∀ x, s.workers w = some x → x.held = none) : Sound D (s.unlock w) where
  __ := h
  held v x phone state at_ holds := by
    obtain ⟨locked,read⟩ := h.held v x phone state at_ holds
    have other : v ≠ w := by
      rintro rfl
      exact nomatch (idle x at_).symm.trans holds
    refine ⟨?_,read⟩
    simp [System.unlock,locked,other]

theorem settingPut (s : System) (phone : String) (state : RecipientState) (other : String) :
    (s.putSetting (recipientKey D phone) state).setting D other =
      if recipientKey D other = recipientKey D phone then some state else s.setting D other := by
  unfold System.setting System.putSetting
  exact Function.update_apply ..

/-- A write under the lock of a phone keeps its opt-out and the order of its attempts. -/
structure Later (state after_ : RecipientState) : Prop where
  optedOut : state.optedOut = true → after_.optedOut = true
  attempt : ∀ at_, state.lastAttemptAt = some at_ → ∃ next, after_.lastAttemptAt = some next ∧ at_ ≤ next

theorem Sound.putUnheld (h : Sound D s) {w : Nat} {phone : String} {state after_ : RecipientState}
    (locked : s.locks (recipientKey D phone) = some w) (none : s.workers w = none) (read : (s.setting D phone).getD {} = state)
    (later : Later state after_) : Sound D (s.putSetting (recipientKey D phone) after_) := by
  have same : ∀ other old, recipientKey D other = recipientKey D phone → s.setting D other = some old → old = state := by
    intro other old key found
    have found : s.setting D phone = some old := by simpa only [System.setting,key] using found
    rw [found] at read
    exact read
  exact {
    h with
    held := fun v y other old there holding => by
      obtain ⟨locked',read'⟩ := h.held v y other old there holding
      have differ : recipientKey D other ≠ recipientKey D phone := by
        intro key
        rw [key,locked] at locked'
        cases locked'
        exact nomatch none.symm.trans there
      refine ⟨locked',?_⟩
      rw [settingPut,if_neg differ]
      exact read'
    attempts := fun id other now mem => by
      obtain ⟨old,last,found,is,le⟩ := h.attempts id other now mem
      rw [settingPut]
      split
      · rename_i key
        obtain rfl := same other old key found
        obtain ⟨new,is,more⟩ := later.attempt last is
        exact ⟨after_,new,rfl,is,Nat.le_trans le more⟩
      · exact ⟨old,last,found,is,le⟩
    optedOut := fun other mem => by
      obtain ⟨old,found,is⟩ := h.optedOut other mem
      rw [settingPut]
      split
      · rename_i key
        obtain rfl := same other old key found
        exact ⟨after_,rfl,later.optedOut is⟩
      · exact ⟨old,found,is⟩ }

theorem Sound.newMessage (h : Sound D s) {m : RetentionMessage} (absent : s.messages.find m.id = none) : Sound D (s.putMessage m) where
  __ := h
  attempted id phone now mem := by
    obtain ⟨old,found,is⟩ := h.attempted id phone now mem
    have other : id ≠ m.id := by
      rintro rfl
      exact nomatch absent.symm.trans found
    exact ⟨old,(Table.find_put_other other).trans found,is⟩

theorem Sound.putMessage (h : Sound D s) {id : String} {old m : RetentionMessage} (found : s.messages.find id = some old)
    (key : m.id = old.id) (kept : old.attemptedAt ≠ none → m.attemptedAt ≠ none) : Sound D (s.putMessage m) where
  __ := h
  attempted other phone now mem := by
    obtain ⟨row,there,is⟩ := h.attempted other phone now mem
    obtain rfl : m.id = id := key.trans (Table.find_key found)
    by_cases mine : other = m.id
    · subst mine
      cases Option.some.inj (found.symm.trans there)
      exact ⟨m,Table.find_put_self _ _,kept is⟩
    · exact ⟨row,(Table.find_put_other mine).trans there,is⟩

theorem gotoGoto (s : System) (w : Nat) (a b : Option Worker) : (s.goto w a).goto w b = s.goto w b := by
  unfold System.goto
  rw [Function.update_idem]

theorem Sound.rest (h : Sound D s) (w : Nat) : Sound D (s.goto w none) := h.goto w fun _ is => nomatch is

/-- Once its worker is free to go on, it goes on. -/
theorem Sound.proceed {w : Nat} (h : Sound D (s.goto w none)) {worker : Option Worker}
    (idle : ∀ x, worker = some x → x.held = none ∧ x.unsent = none ∧ x.ready = none) : Sound D (s.goto w worker) := by
  rw [← gotoGoto s w none worker]
  refine h.goto w fun x is => ?_
  obtain ⟨held,unsent,ready⟩ := idle x is
  refine ⟨held,fun p claims => ?_,fun t is => ?_⟩
  · exact nomatch unsent.symm.trans claims
  · exact nomatch ready.symm.trans is

theorem Sound.write (h : Sound D s) {w : Nat} {x : Worker} {phone : String} {state after_ : RecipientState}
    (at_ : s.workers w = some x) (holds : x.held = some (phone,state)) (later : Later state after_) :
    Sound D (((s.putSetting (recipientKey D phone) after_).unlock w).goto w none) := by
  obtain ⟨locked,read⟩ := h.held w x phone state at_ holds
  have gone : (s.goto w none).workers w = none := Function.update_self ..
  have put : Sound D ((s.goto w none).putSetting (recipientKey D phone) after_) := (h.rest w).putUnheld locked gone read later
  exact put.unlock w fun y there => nomatch gone.symm.trans there

theorem Sound.note (h : Sound D s) {e : Event} (plain : e.plain)
    (stop : ∀ phone, e = .optedOut phone → ∃ state, s.setting D phone = some state ∧ state.optedOut = true) : Sound D (s.note e) := by
  have earlier : ∀ {e'}, e' ∈ (s.note e).log → ¬ e'.plain → e' ∈ s.log := by
    intro e' mem not
    rcases List.mem_cons.mp mem with rfl | mem
    · exact absurd plain not
    · exact mem
  have quiet : ∀ id, e.sends id = false := by
    intro id
    cases e <;> first | rfl | exact plain.elim
  exact {
    h with
    attempts := fun id phone now mem => h.attempts id phone now (earlier mem fun plain => plain)
    optedOut := fun phone mem => by
      rcases List.mem_cons.mp mem with same | mem
      · exact stop phone same.symm
      · exact h.optedOut phone mem
    attempted := fun id phone now mem => h.attempted id phone now (earlier mem fun plain => plain)
    spaced := List.pairwise_cons.mpr ⟨fun other _ id phone now _ _ _ same => by
      cases same
      exact plain.elim,h.spaced⟩
    unsent := fun w x t now at_ claims => by
      obtain ⟨mem,none⟩ := h.unsent w x t now at_ claims
      exact ⟨List.mem_cons_of_mem _ mem,List.forall_mem_cons.mpr ⟨quiet _,none⟩⟩
    ready := fun w x t at_ is => (h.ready w x t at_ is).cons e
    sentClaimed := fun id phone now mem => List.mem_cons_of_mem _ (h.sentClaimed id phone now (earlier mem fun plain => plain))
    once := List.pairwise_cons.mpr ⟨fun other _ id _ => quiet id,h.once⟩
    checks := fun newer id phone now older split => by
      cases newer with
      | nil =>
        cases (List.cons.inj split).1
        exact plain.elim
      | cons first more => exact h.checks more id phone now older (List.cons.inj split).2 }

theorem Sound.claim (h : Sound D s) {w : Nat} {x : Worker} {t : Target} {now : Nat} {state : RecipientState}
    (idle : ∀ old, s.workers w = some old → old.unsent = none)
    (found : s.setting D t.phone = some state) (last : state.lastAttemptAt = some now)
    (attempted : ∃ m, s.messages.find t.message.id = some m ∧ m.attemptedAt ≠ none)
    (fresh : ∀ phone at_, .claimed t.message.id phone at_ ∉ s.log)
    (apart : ∀ id at_, .claimed id t.phone at_ ∈ s.log → at_ + 90*dayMs ≤ now)
    (held : x.held = none) (unsent : x.unsent = some (t,now)) (ready : x.ready = none) :
    Sound D ((s.note (.claimed t.message.id t.phone now)).goto w (some x)) := by
  have workers : ∀ v y, ((s.note (.claimed t.message.id t.phone now)).goto w (some x)).workers v = some y →
      (v = w ∧ y = x) ∨ (v ≠ w ∧ s.workers v = some y) := by
    intro v y at_
    rcases gotoCases at_ with ⟨mine,same⟩ | old
    · exact .inl ⟨mine,(Option.some.inj same).symm⟩
    · exact .inr old
  have unclaimed : ∀ v y u at_, s.workers v = some y → y.unsent = some (u,at_) → t.message.id ≠ u.message.id := by
    intro v y u at_ there claims same
    exact fresh u.phone at_ (same ▸ (h.unsent v y u at_ there claims).1)
  have unsentYet : ∀ e ∈ s.log, e.sends t.message.id = false := by
    intro e mem
    cases e with
    | sent id phone at_ =>
      have differ : id ≠ t.message.id := by
        rintro rfl
        exact fresh phone at_ (h.sentClaimed _ phone at_ mem)
      simp [Event.sends,differ]
    | claimed | checked | optedOut | reported | concluded => rfl
  exact {
    held := fun v y phone' state' at_ holds => by
      rcases workers v y at_ with ⟨_,rfl⟩ | ⟨_,old⟩
      · exact nomatch held.symm.trans holds
      · exact h.held v y phone' state' old holds
    attempts := fun id phone at_ mem => by
      rcases List.mem_cons.mp mem with same | mem
      · cases same
        exact ⟨state,now,found,last,Nat.le_refl _⟩
      · exact h.attempts id phone at_ mem
    optedOut := fun phone mem => h.optedOut phone (by simpa [System.note,System.goto] using mem)
    attempted := fun id phone at_ mem => by
      rcases List.mem_cons.mp mem with same | mem
      · cases same
        exact attempted
      · exact h.attempted id phone at_ mem
    spaced := List.pairwise_cons.mpr ⟨fun e mem id phone at_ id' phone' at' new old => by
      cases new
      cases old
      refine ⟨?_,fun same => .inr (apart id' at' (same ▸ mem))⟩
      rintro rfl
      exact fresh phone' at' mem,h.spaced⟩
    unsent := fun v y u at_ there claims => by
      rcases workers v y there with ⟨_,rfl⟩ | ⟨_,old⟩
      · cases unsent.symm.trans claims
        exact ⟨List.mem_cons_self,List.forall_mem_cons.mpr ⟨rfl,unsentYet⟩⟩
      · obtain ⟨mem,none⟩ := h.unsent v y u at_ old claims
        exact ⟨List.mem_cons_of_mem _ mem,List.forall_mem_cons.mpr ⟨rfl,none⟩⟩
    alone := fun v v' y y' u u' at_ at' there there' claims claims' same => by
      rcases workers v y there with ⟨rfl,rfl⟩ | ⟨_,old⟩ <;> rcases workers v' y' there' with ⟨rfl,rfl⟩ | ⟨_,old'⟩
      · rfl
      · cases unsent.symm.trans claims
        exact absurd same (unclaimed v' y' u' at' old' claims')
      · cases unsent.symm.trans claims'
        exact absurd same.symm (unclaimed v y u at_ old claims)
      · exact h.alone v v' y y' u u' at_ at' old old' claims claims' same
    ready := fun v y u there is => by
      rcases workers v y there with ⟨_,rfl⟩ | ⟨_,old⟩
      · exact nomatch ready.symm.trans is
      · exact (h.ready v y u old is).cons _
    sentClaimed := fun id phone at_ mem =>
      List.mem_cons_of_mem _ (h.sentClaimed id phone at_ (by simpa [System.note,System.goto] using mem))
    once := List.pairwise_cons.mpr ⟨fun _ _ _ _ => rfl,h.once⟩
    checks := fun newer id phone at_ older split => by
      cases newer with
      | nil => exact nomatch (List.cons.inj split).1
      | cons first more => exact h.checks more id phone at_ older (List.cons.inj split).2 }

theorem Sound.send (h : Sound D s) {w : Nat} {x y : Worker} {t : Target} {now : Nat} (there : s.workers w = some x)
    (unsent : x.unsent = some (t,now)) (ready : x.ready = some t) (idle : y.held = none ∧ y.unsent = none ∧ y.ready = none) :
    Sound D ((s.note (.sent t.message.id t.phone now)).goto w (some y)) := by
  obtain ⟨claim,unsentYet⟩ := h.unsent w x t now there unsent
  have checked := h.ready w x t there ready
  have workers : ∀ v z, ((s.note (.sent t.message.id t.phone now)).goto w (some y)).workers v = some z →
      (v = w ∧ z = y) ∨ (v ≠ w ∧ s.workers v = some z) := by
    intro v z at_
    rcases gotoCases at_ with ⟨mine,same⟩ | old
    · exact .inl ⟨mine,(Option.some.inj same).symm⟩
    · exact .inr old
  exact {
    held := fun v z phone state at_ holds => by
      rcases workers v z at_ with ⟨_,rfl⟩ | ⟨_,old⟩
      · exact nomatch idle.1.symm.trans holds
      · exact h.held v z phone state old holds
    attempts := fun id phone at_ mem => h.attempts id phone at_ (by simpa [System.note,System.goto] using mem)
    optedOut := fun phone mem => h.optedOut phone (by simpa [System.note,System.goto] using mem)
    attempted := fun id phone at_ mem => h.attempted id phone at_ (by simpa [System.note,System.goto] using mem)
    spaced := List.pairwise_cons.mpr ⟨fun _ _ _ _ _ _ _ _ new => (nomatch new),h.spaced⟩
    unsent := fun v z u at_ is claims => by
      rcases workers v z is with ⟨_,rfl⟩ | ⟨other,old⟩
      · exact nomatch idle.2.1.symm.trans claims
      · obtain ⟨mem,none⟩ := h.unsent v z u at_ old claims
        have differ : t.message.id ≠ u.message.id := fun same => other (h.alone v w z x u t at_ now old there claims unsent same.symm)
        exact ⟨List.mem_cons_of_mem _ mem,List.forall_mem_cons.mpr ⟨by simp [Event.sends,differ],none⟩⟩
    alone := fun v v' z z' u u' at_ at' is is' claims claims' same => by
      rcases workers v z is with ⟨_,rfl⟩ | ⟨_,old⟩
      · exact nomatch idle.2.1.symm.trans claims
      rcases workers v' z' is' with ⟨_,rfl⟩ | ⟨_,old'⟩
      · exact nomatch idle.2.1.symm.trans claims'
      exact h.alone v v' z z' u u' at_ at' old old' claims claims' same
    ready := fun v z u is isReady => by
      rcases workers v z is with ⟨_,rfl⟩ | ⟨_,old⟩
      · exact nomatch idle.2.2.symm.trans isReady
      · exact (h.ready v z u old isReady).cons _
    sentClaimed := fun id phone at_ mem => by
      rcases List.mem_cons.mp mem with same | mem
      · cases same
        exact List.mem_cons_of_mem _ claim
      · exact List.mem_cons_of_mem _ (h.sentClaimed id phone at_ mem)
    once := List.pairwise_cons.mpr ⟨fun e mem id sends => by
      have differ : t.message.id ≠ id := by
        rintro rfl
        rw [unsentYet e mem] at sends
        cases sends
      simp [Event.sends,differ],h.once⟩
    checks := fun newer id phone at_ older split => by
      cases newer with
      | nil =>
        obtain ⟨same,rfl⟩ := List.cons.inj split
        cases same
        exact checked
      | cons first more => exact h.checks more id phone at_ older (List.cons.inj split).2 }

/-! ### Steps -/

theorem Sound.environment (h : Sound D s) (customers : List RetentionCustomer) (privacyPending : List CustomerId) :
    Sound D { s with customers, privacyPending } := { h with }

theorem Sound.reported (h : Sound D s) (id : String) (params : CallbackParams) : Sound D (s.note (.reported id params)) :=
  h.note trivial fun _ same => nomatch same

/-- A worker that holds no lock, no unsent claim and no checked message. -/
theorem Sound.settle (h : Sound D s) (w : Nat) {worker : Option Worker}
    (idle : ∀ x, worker = some x → x.held = none ∧ x.unsent = none ∧ x.ready = none) : Sound D (s.goto w worker) :=
  (h.rest w).proceed idle

theorem Sound.crash (h : Sound D s) (w : Nat) : Sound D ((s.unlock w).goto w none) := by
  have gone : (s.goto w none).workers w = none := Function.update_self ..
  have released : Sound D ((s.goto w none).unlock w) := (h.rest w).unlock w fun y there => nomatch gone.symm.trans there
  exact released

theorem laterSame {state : RecipientState} : Later state state := ⟨id,fun at_ is => ⟨at_,is,Nat.le_refl _⟩⟩

theorem Sound.commitStop (h : Sound D s) {w : Nat} {x : Worker} {phone : String} {state : RecipientState} (there : s.workers w = some x)
    (holds : x.held = some (phone,state)) (now : Nat) : Sound D (((s.commitStop D phone state now).unlock w).goto w none) := by
  have later : Later state { state with optedOut := true } := ⟨fun _ => rfl,fun at_ is => ⟨at_,is,Nat.le_refl _⟩⟩
  have written := h.write there holds later
  have noted := written.note (e := .optedOut phone) trivial fun other same => by
    cases same
    exact ⟨{ state with optedOut := true },(settingPut s phone _ phone).trans (if_pos rfl),rfl⟩
  exact noted.environment _ _

theorem draftSource {s : System} {id : String} {m : RetentionMessage} (h : s.draftRow id = some m) :
    s.messages.find id = some m ∧ m.attemptedAt = none := by
  obtain ⟨found,free⟩ := Option.filter_eq_some_iff.mp h
  exact ⟨found,by simpa using (Bool.and_eq_true_iff.mp free).2⟩

theorem attemptApart {customers : List RetentionCustomer} {privacyPending : List CustomerId} {t : Target} {state : RecipientState}
    {now : Nat} (h : skipReason customers privacyPending t state now = none) :
    ∀ at_, state.lastAttemptAt = some at_ → at_ + 90*dayMs ≤ now := by
  intro at_ is
  unfold skipReason at h
  dsimp only at h
  split at h
  · cases h
  split at h
  · cases h
  · rename_i late
    rw [is,Option.any_some,decide_eq_true_eq,Nat.not_lt] at late
    exact late

theorem Sound.commitClaim (h : Sound D s) {w : Nat} {config : SmsConfig} {t : Target} {state : RecipientState} {now : Nat}
    {rest : List RetentionMessage} (there : s.workers w = some (.campaign config now (.deciding t state rest))) :
    Sound D ((((s.commitClaim D config t state now).1).unlock w).goto w
      (going config now (if (s.commitClaim D config t state now).2 then .checking t rest else .next rest))) := by
  have idleNext : ∀ x, going config now (.next rest) = some x → x.held = none ∧ x.unsent = none ∧ x.ready = none := by
    intro x is
    cases is
    exact ⟨rfl,rfl,rfl⟩
  unfold System.commitClaim
  dsimp only
  split
  · rename_i reason m _ draft
    obtain ⟨found,free⟩ := draftSource draft
    have written := h.write there rfl laterSame
    have put := written.putMessage (m := skipped m reason) found rfl id
    exact Sound.proceed put idleNext
  · exact Sound.proceed (h.write there rfl laterSame) idleNext
  · rename_i m skip draft
    obtain ⟨found,free⟩ := draftSource draft
    have apart := attemptApart skip
    have read := (h.held w _ t.phone state there rfl).2
    have later : Later state { state with lastAttemptAt := some now } :=
      ⟨id,fun at_ is => ⟨now,rfl,Nat.le_trans (Nat.le_add_right _ _) (apart at_ is)⟩⟩
    have here : (s.messages.put (claimed m config.body now)).find t.message.id = some (claimed m config.body now) := by
      rw [← Table.find_key found]
      exact Table.find_put_self s.messages (claimed m config.body now)
    have put := (h.write there rfl later).putMessage (m := claimed m config.body now) found rfl fun _ => nofun
    have stored := (settingPut (D := D) s t.phone { state with lastAttemptAt := some now } t.phone).trans (if_pos rfl)
    have gone : (s.goto w none).workers w = none := Function.update_self ..
    have won := put.claim (w := w) (x := .campaign config now (.checking t rest)) (t := t)
      (fun old is => nomatch gone.symm.trans is) stored rfl ⟨_,here,Option.some_ne_none now⟩
      (fun phone at_ mem => by
        obtain ⟨row,is,unfree⟩ := h.attempted t.message.id phone at_ mem
        cases Option.some.inj (found.symm.trans is)
        exact unfree free)
      (fun id at_ mem => by
        obtain ⟨old,last,is,attempt,le⟩ := h.attempts id t.phone at_ mem
        rw [is] at read
        exact Nat.le_trans (Nat.add_le_add_right le _) (apart last (read ▸ attempt)))
      rfl rfl rfl
    rw [← gotoGoto _ w none]
    exact won

theorem Sound.step (h : Sound D s) {a : Action} {t : System} (ok : s.step D a = some t) : Sound D t := by
  cases a with
  | environment customers privacyPending =>
    cases ok
    exact h.environment customers privacyPending
  | draft m =>
    dsimp only [System.step] at ok
    split at ok <;> cases ok
    exact h.newMessage (by assumption)
  | sendRetentionMessages w config now =>
    dsimp only [System.step] at ok
    split at ok <;> cases ok
    split
    · exact h
    · exact h.settle w fun x is => by cases is; exact ⟨rfl,rfl,rfl⟩
  | inbound w from_ now =>
    dsimp only [System.step] at ok
    split at ok <;> cases ok
    exact h.settle w fun x is => by cases is; exact ⟨rfl,rfl,rfl⟩
  | callback w id params now =>
    dsimp only [System.step] at ok
    split at ok
    · cases ok
    split at ok <;> cases ok
    · exact h.reported id params
    · exact h.settle w fun x is => by cases is; exact ⟨rfl,rfl,rfl⟩
  | crash w =>
    cases ok
    exact h.crash w
  | list w =>
    dsimp only [System.step] at ok
    split at ok <;> cases ok
    exact h.settle w fun x is => by cases is; exact ⟨rfl,rfl,rfl⟩
  | take w =>
    dsimp only [System.step] at ok
    split at ok
    · cases ok
      exact h.rest w
    · split at ok <;> cases ok
      all_goals exact h.settle w fun x is => by cases is; exact ⟨rfl,rfl,rfl⟩
    · cases ok
  | lock w =>
    dsimp only [System.step] at ok
    split at ok
    case h_4 => cases ok
    all_goals
      obtain ⟨state,free,rfl⟩ := Option.map_eq_some_iff.mp ok
      exact h.lock w free rfl rfl rfl
  | commit w =>
    dsimp only [System.step] at ok
    split at ok
    · cases ok
      exact h.commitClaim (by assumption)
    · cases ok
      exact Sound.proceed (h.commitStop (by assumption) rfl _) fun x is => by cases is; exact ⟨rfl,rfl,rfl⟩
    · cases ok
      exact h.commitStop (by assumption) rfl _
    · cases ok
  | stopFails w =>
    dsimp only [System.step] at ok
    split at ok <;> cases ok
    exact Sound.proceed (h.crash w) fun x is => by cases is; exact ⟨rfl,rfl,rfl⟩
  | check w =>
    dsimp only [System.step] at ok
    split at ok
    case h_2 => cases ok
    rename_i config now t rest there
    split at ok
    · cases ok
      exact h.rest w
    rename_i state found
    split at ok <;> cases ok
    · exact h.goto w fun x is => by cases is; exact ⟨rfl,fun p claims => ⟨_,there,claims⟩,nofun⟩
    · rename_i open_
      have none : .optedOut t.phone ∉ s.log := by
        intro mem
        obtain ⟨old,is,stopped⟩ := h.optedOut t.phone mem
        cases Option.some.inj (found.symm.trans is)
        exact open_ stopped
      refine (h.note (e := .checked t.message.id t.phone) trivial nofun).goto w fun x is => ?_
      cases is
      refine ⟨rfl,fun p claims => ⟨_,there,claims⟩,fun u same => ?_⟩
      cases same
      exact ⟨[],s.log,rfl,none⟩
  | suppress w =>
    dsimp only [System.step] at ok
    split at ok
    case h_2 => cases ok
    split at ok <;> cases ok
    · exact h.rest w
    · rename_i m found
      exact (h.putMessage (m := suppressedBeforeSend m) found rfl id).settle w fun x is => by cases is; exact ⟨rfl,rfl,rfl⟩
  | send w =>
    dsimp only [System.step] at ok
    split at ok <;> cases ok
    exact h.send (by assumption) rfl rfl ⟨rfl,rfl,rfl⟩
  | answer w response =>
    dsimp only [System.step] at ok
    split at ok <;> cases ok
    refine h.settle w fun x is => ?_
    split at is <;> cases is <;> exact ⟨rfl,rfl,rfl⟩
  | record w =>
    dsimp only [System.step] at ok
    split at ok
    case h_2 => cases ok
    rename_i config now t outcome rest there
    have noted : Sound D (if outcome.sid.isSome then s.note (.concluded t.message.id outcome.status) else s) := by
      split
      · exact h.note trivial nofun
      · exact h
    have messages : (if outcome.sid.isSome then s.note (.concluded t.message.id outcome.status) else s).messages = s.messages := by
      split <;> rfl
    split at ok
    · rename_i m found
      rw [← messages] at found
      split at ok <;> cases ok
      · exact (noted.putMessage (m := concluded m outcome now) found rfl id).settle w fun x is => by
          cases is; exact ⟨rfl,rfl,rfl⟩
      · exact noted.settle w fun x is => by cases is; exact ⟨rfl,rfl,rfl⟩
    · cases ok
      exact noted.settle w fun x is => by cases is; exact ⟨rfl,rfl,rfl⟩
  | read w =>
    dsimp only [System.step] at ok
    split at ok
    case h_2 => cases ok
    split at ok
    · split at ok <;> cases ok
      · exact h.settle w fun x is => by cases is; exact ⟨rfl,rfl,rfl⟩
      · exact (h.reported _ _).rest w
    · cases ok
      exact (h.reported _ _).rest w
  | write w =>
    dsimp only [System.step] at ok
    split at ok
    case h_2 => cases ok
    rename_i record params now there
    split at ok
    · rename_i row found
      split at ok <;> cases ok
      · exact ((h.reported _ _).putMessage (m := delivered row record params now) found rfl id).rest w
      · exact (h.reported _ _).rest w
    · cases ok
      exact (h.reported _ _).rest w

theorem Sound.initial : Sound D initial where
  held _ _ _ _ at_ := nomatch at_
  attempts _ _ _ mem := absurd mem List.not_mem_nil
  optedOut _ mem := absurd mem List.not_mem_nil
  attempted _ _ _ mem := absurd mem List.not_mem_nil
  spaced := .nil
  unsent _ _ _ _ at_ := nomatch at_
  alone _ _ _ _ _ _ _ _ at_ := nomatch at_
  ready _ _ _ at_ := nomatch at_
  sentClaimed _ _ _ mem := absurd mem List.not_mem_nil
  once := .nil
  checks _ _ _ _ _ split := absurd (congrArg List.length split) (by simp [System.initial])

theorem countOnce {log : List Event} {p : Event → Bool} (once : log.Pairwise fun later earlier => p earlier = true → p later = false) :
    log.countP p ≤ 1 := by
  induction once with
  | nil => exact Nat.zero_le 1
  | @cons e rest first _ ih =>
    cases is : p e with
    | false => simpa [is] using ih
    | true =>
      have none : rest.countP p = 0 := List.countP_eq_zero.mpr fun other mem sends => nomatch is.symm.trans (first other mem sends)
      simp [is,none]

/-- Two sends to one phone, ninety days apart by the clocks of their runs. -/
def Apart (e e' : Event) : Prop :=
  ∀ id phone now id' now', e = .sent id phone now → e' = .sent id' phone now' → now + 90*dayMs ≤ now' ∨ now' + 90*dayMs ≤ now

theorem Sound.apart (h : Sound D s) : s.log.Pairwise Apart := by
  refine h.once.imp_of_mem fun {e e'} mem mem' once id phone now id' now' is is' => ?_
  subst is is'
  have differ : id ≠ id' := by
    rintro rfl
    exact nomatch (once id (by simp [Event.sends])).symm.trans (by simp [Event.sends] : Event.sends id (.sent id phone now) = true)
  have claim := h.sentClaimed id phone now mem
  have claim' := h.sentClaimed id' phone now' mem'
  have spaced : Spaced (.claimed id phone now) (.claimed id' phone now') :=
    h.spaced.forall claim claim' fun same => differ (Event.claimed.inj same).1
  exact (spaced id phone now id' phone now' rfl rfl).2 rfl

theorem sentOnce (D : Deployment) {s : System} (reached : Transition.Reachable (step D) initial s) :
    (∀ id, s.log.countP (Event.sends id) ≤ 1) ∧ s.log.Pairwise Apart ∧
      (∀ newer id phone now older, s.log = newer ++ .sent id phone now::older → Checked older id phone) ∧
      ∀ phone, .optedOut phone ∈ s.log → ∃ state, s.setting D phone = some state ∧ state.optedOut = true := by
  have sound : Sound D s := reached.invariant Sound.initial fun _ _ _ sound taken => sound.step taken
  exact ⟨fun id => countOnce (sound.once.imp fun once => once id),sound.apart,sound.checks,sound.optedOut⟩

/-! A draft that two runs take at once, and an opt-out after its send. -/

def sampleDeployment : Deployment := ⟨fun _ phone => phone,"secret",fun _ => 12⟩

def sampleCustomer (id : String) : RetentionCustomer := ⟨id,"5195550123","5195550123",false,none,none,[⟨0,some 0⟩]⟩

def sampleDraft (id : String) : RetentionMessage := { id := id, customerId := id, inactivityAnchorAt := 0, eligibleAt := 90*dayMs, phone := "+15195550123", messageBody := "" }

def sampleConfig : SmsConfig := ⟨.live,0,10,[],"Speedy Sweeties: Hello. Reply STOP to unsubscribe."⟩

def sampleQueued : TwilioResponse := ⟨201,some "SMcccccccccccccccccccccccccccccccc",some "queued",none⟩

def sampleRun : List Action :=
  [.environment [sampleCustomer "a"] [],.draft (sampleDraft "a"),.sendRetentionMessages 0 sampleConfig (100*dayMs),
    .sendRetentionMessages 1 sampleConfig (100*dayMs),.list 0,.list 1,.take 0,.take 1,.lock 0,.commit 0,.lock 1,.commit 1,.take 1,
    .check 0,.send 0,.inbound 1 "519-555-0123" 7,.lock 1,.commit 1,.answer 0 (some sampleQueued),.record 0]

theorem sampleSentOnce : ∃ s, Transition.Reachable (step sampleDeployment) initial s ∧ s.log.length = 5 ∧
    (∀ id, s.log.countP (Event.sends id) ≤ 1) ∧ s.log.Pairwise Apart := by
  have ends : (Transition.run (step sampleDeployment) initial sampleRun).map (·.log.length) = some 5 := by decide +kernel
  obtain ⟨s,ran,length⟩ := Option.map_eq_some_iff.mp ends
  have reached := Transition.runReachable .start ran
  exact ⟨s,reached,length,(sentOnce sampleDeployment reached).1,(sentOnce sampleDeployment reached).2.1⟩

end System
end Retention
end SpeedySweeties
