import SpeedySweeties.Bnd.Monitor

/-! The requests of the monitor: one check at a time, three requests in a check, one login,
and the pending orders only from a whole response. -/
namespace SpeedySweeties
namespace BndMonitor
open Bnd

def Event.requests (c : Nat) : Event → Bool
  | .requested check _ _ => check = c
  | _ => false

def Event.logins (c : Nat) : Event → Bool
  | .requested check .login _ => check = c
  | _ => false

/-- Requests and logins of a check before the request of the phase. -/
def Phase.made : Phase → Nat × Nat
  | .login | .read true => (0,0)
  | .read false => (1,1)
  | .relogin => (1,0)
  | .reread => (2,1)

def Phase.sent (p : Phase) : Nat × Nat := (p.made.1 + 1,p.made.2 + if p.kind = .login then 1 else 0)

/-- Requests and logins that a check has made, where its stage tells. -/
def Stage.made : Stage → Option (Nat × Nat)
  | .before => some (0,0)
  | .starting phase => some phase.made
  | .fetching phase | .cancelling phase _ _ | .reading phase => some phase.sent
  | .failing retry error => if retry ∧ error.refused then some (1,0) else none
  | .received _ | .saving => none

/-- The check may still make a request, or publish. -/
def Stage.active : Stage → Bool
  | .before | .saving => false
  | .failing retry _ => retry
  | .starting _ | .fetching _ | .cancelling _ _ _ | .reading _ | .received _ => true

structure StageSound (log : List Event) (notBefore : Int) (c : Nat) (stage : Stage) : Prop where
  made : ∀ used, stage.made = some used → log.countP (Event.requests c) = used.1 ∧ log.countP (Event.logins c) = used.2
  began : stage.active = true → ∃ at_, .began c at_ ∈ log ∧ notBefore ≤ at_
  listed : ∀ snapshot, stage = .received snapshot → ∃ body, .listed c body ∈ log ∧ parseBndObservation body = .ok snapshot

theorem loginsRequest {c : Nat} {e : Event} (h : e.requests c = false) : e.logins c = false := by
  cases e with
  | requested check kind at_ => cases kind <;> simp_all [Event.requests,Event.logins]
  | began | limited | listed | failed => rfl

theorem StageSound.note {log : List Event} {notBefore : Int} {c : Nat} {stage : Stage} (h : StageSound log notBefore c stage) {e : Event} (quiet : e.requests c = false) :
    StageSound (e::log) notBefore c stage where
  made used is := by
    rw [List.countP_cons_of_neg (by simp [quiet]),List.countP_cons_of_neg (by simp [loginsRequest quiet])]
    exact h.made used is
  began active := (h.began active).imp fun _ held => ⟨List.mem_cons_of_mem e held.1,held.2⟩
  listed snapshot is := (h.listed snapshot is).imp fun _ held => ⟨List.mem_cons_of_mem e held.1,held.2⟩

namespace Monitor
variable {wall : Int → Int} {o : BndOptions} {m t : Monitor} {c : Nat} {old stage : Stage}

structure Sound (o : BndOptions) (m : Monitor) : Prop where
  single : ∀ c d, m.checks c ≠ none → m.checks d ≠ none → c = d
  flight : ∀ c, m.checks c ≠ none → m.inFlight = true ∧ o.enabled = true ∧ BndOptions.configured o = true
  fresh : ∀ c, m.calls ≤ c → m.checks c = none ∧ ∀ e ∈ m.log, e.requests c = false
  stages : ∀ c stage, m.checks c = some stage → StageSound m.log m.notBefore c stage
  bounds : ∀ c, m.log.countP (Event.requests c) ≤ 3 ∧ m.log.countP (Event.logins c) ≤ 1

/-- What the invariant does not mention may change, and the back-off where no check can ask any more. -/
theorem Sound.same (h : Sound o m) (checks : t.checks = m.checks) (log : t.log = m.log) (calls : t.calls = m.calls)
    (inFlight : t.inFlight = m.inFlight)
    (notBefore : t.notBefore = m.notBefore ∨ ∀ c stage, m.checks c = some stage → stage.active = false) : Sound o t where
  single := by rw [checks]; exact h.single
  flight := by rw [checks,inFlight]; exact h.flight
  fresh := by rw [checks,log,calls]; exact h.fresh
  stages c stage there := by
    rw [checks] at there
    rw [log]
    have sound := h.stages c stage there
    rcases notBefore with same | idle
    · exact same ▸ sound
    · exact { sound with began := fun active => nomatch (idle c stage there).symm.trans active }
  bounds := by rw [log]; exact h.bounds

theorem gotoCases {d : Nat} {next : Stage} (at_ : (m.goto c stage).checks d = some next) :
    (d = c ∧ next = stage) ∨ (d ≠ c ∧ m.checks d = some next) := by
  by_cases mine : d = c
  · subst mine
    have here : (m.goto d stage).checks d = some stage := Function.update_self ..
    exact .inl ⟨rfl,Option.some.inj (at_.symm.trans here)⟩
  · exact .inr ⟨mine,(Function.update_of_ne mine _ _).symm.trans at_⟩

theorem gotoSome {d : Nat} (there : m.checks c = some old) (at_ : (m.goto c stage).checks d ≠ none) : m.checks d ≠ none := by
  by_cases mine : d = c
  · subst mine
    simp [there]
  · rwa [show (m.goto c stage).checks d = m.checks d from Function.update_of_ne mine _ _] at at_

theorem Sound.goto (h : Sound o m) (there : m.checks c = some old) (sound : StageSound m.log m.notBefore c stage) : Sound o (m.goto c stage) where
  __ := h
  single d e at_ at' := h.single d e (gotoSome there at_) (gotoSome there at')
  flight d at_ := h.flight d (gotoSome there at_)
  fresh d late := by
    obtain ⟨none,quiet⟩ := h.fresh d late
    have other : d ≠ c := by
      rintro rfl
      exact nomatch none.symm.trans there
    exact ⟨(Function.update_of_ne other _ _).trans none,quiet⟩
  stages d next at_ := by
    rcases gotoCases at_ with ⟨rfl,rfl⟩ | ⟨_,is⟩
    · exact sound
    · exact h.stages d next is

theorem Sound.finished (h : Sound o m) (there : m.checks c = some old) : ∀ d, (m.finish c).checks d = none := by
  intro d
  by_cases mine : d = c
  · subst mine
    exact Function.update_self ..
  · by_contra busy
    have same : (m.finish c).checks d = m.checks d := Function.update_of_ne mine _ _
    exact mine (h.single d c (same ▸ busy) (by simp [there]))

theorem Sound.finish (h : Sound o m) (there : m.checks c = some old) : Sound o (m.finish c) where
  __ := h
  single d _ at_ := absurd (h.finished there d) at_
  flight d at_ := absurd (h.finished there d) at_
  fresh d late := ⟨h.finished there d,(h.fresh d late).2⟩
  stages d _ at_ := nomatch (h.finished there d).symm.trans at_

theorem Sound.note (h : Sound o m) {e : Event} (quiet : ∀ c, e.requests c = false) : Sound o (m.note e) where
  __ := h
  fresh d late := ⟨(h.fresh d late).1,List.forall_mem_cons.mpr ⟨quiet d,(h.fresh d late).2⟩⟩
  stages d next at_ := (h.stages d next at_).note (quiet d)
  bounds d := by
    change (e::m.log).countP _ ≤ 3 ∧ (e::m.log).countP _ ≤ 1
    rw [List.countP_cons_of_neg (by simp [quiet d]),List.countP_cons_of_neg (by simp [loginsRequest (quiet d)])]
    exact h.bounds d

theorem Sound.request (h : Sound o m) {phase : Phase} (there : m.checks c = some (.starting phase)) (at_ : Int) :
    Sound o ((m.note (.requested c phase.kind at_)).goto c (.fetching phase)) := by
  have sound := h.stages c _ there
  obtain ⟨requests,logins⟩ := sound.made phase.made rfl
  obtain ⟨began,mem,le⟩ := sound.began rfl
  have counted : (Event.requested c phase.kind at_::m.log).countP (Event.requests c) = phase.sent.1 ∧
      (Event.requested c phase.kind at_::m.log).countP (Event.logins c) = phase.sent.2 := by
    rw [List.countP_cons,List.countP_cons,requests,logins]
    cases kind : phase.kind <;> simp [Event.requests,Event.logins,Phase.sent,kind]
  have sent : phase.sent.1 ≤ 3 ∧ phase.sent.2 ≤ 1 := by
    cases phase with
    | read hadToken => cases hadToken <;> decide
    | login | relogin | reread => decide
  have other : ∀ d, d ≠ c → (Event.requested c phase.kind at_).requests d = false := fun d differ => by
    simp [Event.requests,Ne.symm differ]
  have mine : ∀ d next, m.checks d = some next → d = c := fun d next is => h.single d c (by simp [is]) (by simp [there])
  exact {
    single := fun d e at_ at' => h.single d e (gotoSome there at_) (gotoSome there at')
    flight := fun d at_ => h.flight d (gotoSome there at_)
    fresh := fun d late => by
      obtain ⟨none,quiet⟩ := h.fresh d late
      have differ : d ≠ c := by
        rintro rfl
        exact nomatch none.symm.trans there
      exact ⟨(Function.update_of_ne differ _ _).trans none,List.forall_mem_cons.mpr ⟨other d differ,quiet⟩⟩
    stages := fun d next is => by
      rcases gotoCases is with ⟨rfl,rfl⟩ | ⟨differ,is⟩
      · exact ⟨fun used same => by cases same; exact counted,fun _ => ⟨began,List.mem_cons_of_mem _ mem,le⟩,nofun⟩
      · exact absurd (mine d next is) differ
    bounds := fun d => by
      by_cases same : d = c
      · subst same
        exact ⟨counted.1 ▸ sent.1,counted.2 ▸ sent.2⟩
      · change (_::m.log).countP _ ≤ 3 ∧ (_::m.log).countP _ ≤ 1
        rw [List.countP_cons_of_neg (by simp [other d same]),List.countP_cons_of_neg (by simp [loginsRequest (other d same)])]
        exact h.bounds d }

theorem Sound.call (h : Sound o m) : Sound o (m.call o).1 := by
  unfold Monitor.call
  split
  · exact h
  rename_i free
  simp only [not_or,Bool.not_eq_true] at free
  have idle : ∀ d, m.checks d = none := by
    intro d
    by_contra busy
    exact nomatch free.2.1.symm.trans (h.flight d busy).1
  have others : ∀ d, d ≠ m.calls → ({ m with inFlight := true, calls := m.calls + 1 }.goto m.calls .before).checks d = none :=
    fun d differ => (Function.update_of_ne differ _ _).trans (idle d)
  have mine : ∀ d, ({ m with inFlight := true, calls := m.calls + 1 }.goto m.calls .before).checks d ≠ none → d = m.calls := by
    intro d busy
    by_contra differ
    exact busy (others d differ)
  have none : ∀ d, m.calls ≤ d → m.log.countP (Event.requests d) = 0 ∧ m.log.countP (Event.logins d) = 0 := by
    intro d late
    have quiet := (h.fresh d late).2
    exact ⟨List.countP_eq_zero.mpr fun e mem => by simp [quiet e mem],List.countP_eq_zero.mpr fun e mem => by simp [loginsRequest (quiet e mem)]⟩
  exact {
    h with
    single := fun d e at_ at' => (mine d at_).trans (mine e at').symm
    flight := fun d at_ => ⟨rfl,by simpa using free.2.2⟩
    fresh := fun d late => ⟨others d (Nat.ne_of_gt late),(h.fresh d (Nat.le_of_succ_le late)).2⟩
    stages := fun d next at_ => by
      rcases gotoCases at_ with ⟨rfl,rfl⟩ | ⟨differ,is⟩
      · exact ⟨fun used same => by cases same; exact none _ (Nat.le_refl _),nofun,nofun⟩
      · exact nomatch (idle d).symm.trans is }

theorem Sound.pause (h : Sound o m) : Sound o (m.pause wall) := h.same rfl rfl rfl rfl (.inl rfl)

theorem Sound.runTick (h : Sound o m) : Sound o (m.runTick o) := h.call.same rfl rfl rfl rfl (.inl rfl)

theorem Sound.proceed (h : Sound o m) (there : m.checks c = some .before) : Sound o (m.proceed wall c) := by
  unfold Monitor.proceed
  split
  · exact h.finish there
  split
  · have paused : Sound o (m.pause wall) := h.pause
    exact paused.finish there
  have resumed : Sound o m.unpause := h.same rfl rfl rfl rfl (.inl rfl)
  split
  · exact resumed.finish there
  · rename_i due
    have looked : Sound o { m.unpause with status := { m.unpause.status with lastCheckedAt := some m.clock } } :=
      h.same rfl rfl rfl rfl (.inl rfl)
    have noted := looked.note (e := .began c m.clock) fun _ => rfl
    refine noted.goto there ⟨fun used is => ?_,fun _ => ⟨m.clock,List.mem_cons_self,Int.not_lt.mp due⟩,nofun⟩
    have none := (noted.stages c .before there).made (0,0) rfl
    have zero : used = (0,0) := by
      cases session : m.unpause.token.isSome <;> simp [session,Stage.made,Phase.made] at is <;> exact is.symm
    exact zero ▸ none

theorem Sound.fail (h : Sound o m) (error : CheckError) (idle : ∀ d, m.checks d = none) : Sound o (m.fail wall error) :=
  h.same rfl rfl rfl rfl (.inr fun d _ at_ => nomatch (idle d).symm.trans at_)

theorem Sound.catch_ (h : Sound o m) {retry : Bool} {error : CheckError} (there : m.checks c = some (.failing retry error)) :
    Sound o (m.catch_ wall c retry error) := by
  have sound := h.stages c _ there
  unfold Monitor.catch_
  split
  · rename_i again
    have fresh : Sound o { m with token := none } := h.same rfl rfl rfl rfl (.inl rfl)
    refine fresh.goto there ⟨fun used is => ?_,fun _ => sound.began again.1,nofun⟩
    cases is
    exact sound.made (1,0) (by simp [Stage.made,again.1,again.2.1])
  split
  · split
    · exact h.finish there
    · have paused : Sound o (m.pause wall) := h.pause
      exact paused.finish there
  · have noted := h.note (e := .failed c error.code m.clock) fun _ => rfl
    dsimp only
    split
    · exact noted.finish there
    split
    · have paused : Sound o (Monitor.pause wall _) := noted.pause
      exact paused.finish there
    · exact (noted.finish there).fail error (noted.finished there)

theorem Sound.publish (h : Sound o m) {snapshot : BndSnapshot} (there : m.checks c = some (.received snapshot)) :
    Sound o (m.publish wall c snapshot) := by
  unfold Monitor.publish
  split
  · exact h.finish there
  split
  · have paused : Sound o (m.pause wall) := h.pause
    exact paused.finish there
  · have saving : Sound o (m.goto c .saving) := h.goto there ⟨nofun,nofun,nofun⟩
    refine saving.same rfl rfl rfl rfl (.inr fun d next at_ => ?_)
    rcases gotoCases at_ with ⟨_,rfl⟩ | ⟨differ,is⟩
    · rfl
    · exact absurd (h.single d c (by simp [is]) (by simp [there])) differ

/-- A failure, of which the catch of the first read is still to come where it was that read. -/
theorem Sound.failing (h : Sound o m) {phase : Phase} (there : m.checks c = some old) (made : old.made = some phase.sent)
    (active : old.active = true) (error : CheckError) : Sound o (m.goto c (.failing (phase = .read true) error)) := by
  have sound := h.stages c old there
  refine h.goto there ⟨fun used is => ?_,fun _ => sound.began active,nofun⟩
  simp only [Stage.made] at is
  split at is
  · rename_i again
    cases of_decide_eq_true again.1
    cases is
    exact sound.made (1,0) made
  · cases is

theorem Sound.step (h : Sound o m) {a : Action} (ok : m.step wall o a = some t) : Sound o t := by
  cases a with
  | elapse ms =>
    cases ok
    exact h.same rfl rfl rfl rfl (.inl rfl)
  | setHours hours =>
    dsimp only [Monitor.step] at ok
    split at ok <;> cases ok
    exact h.same rfl rfl rfl rfl (.inl rfl)
  | start =>
    dsimp only [Monitor.step] at ok
    have begun : Sound o { m with started := true } := h.same rfl rfl rfl rfl (.inl rfl)
    split at ok
    · cases ok
      exact h
    split at ok <;> cases ok
    · exact begun
    · exact begun.runTick
  | fire =>
    dsimp only [Monitor.step] at ok
    split at ok
    · split at ok <;> cases ok
      exact h.runTick
    · cases ok
  | tickDone refreshAt =>
    dsimp only [Monitor.step] at ok
    split at ok
    · split at ok <;> cases ok
      exact h.same rfl rfl rfl rfl (.inl rfl)
    · cases ok
  | stop =>
    cases ok
    exact h.same rfl rfl rfl rfl (.inl rfl)
  | check =>
    cases ok
    exact h.call
  | proceed c =>
    dsimp only [Monitor.step] at ok
    split at ok <;> cases ok
    exact h.proceed (by assumption)
  | beforeFails c =>
    dsimp only [Monitor.step] at ok
    split at ok <;> cases ok
    rename_i there
    exact (h.finish there).same rfl rfl rfl rfl (.inl rfl)
  | request c =>
    dsimp only [Monitor.step] at ok
    split at ok <;> cases ok
    rename_i phase there
    have sound := h.stages c _ there
    have failing : ∀ error : CheckError, error.refused = false → Sound o (m.goto c (.failing (phase = .read true) error)) :=
      fun error refused => h.goto there ⟨fun used is => by simp [Stage.made,refused] at is,fun _ => sound.began rfl,nofun⟩
    split
    · exact failing _ rfl
    split
    · exact failing _ rfl
    · exact h.request there m.clock
  | fetchFails c =>
    dsimp only [Monitor.step] at ok
    split at ok <;> cases ok
    · rename_i there
      exact h.failing there rfl rfl _
    · rename_i there
      exact h.failing there rfl rfl _
  | headers c status retry =>
    dsimp only [Monitor.step] at ok
    split at ok
    case h_2 => cases ok
    rename_i phase there
    have sound := h.stages c _ there
    split at ok <;> cases ok
    · exact h.goto there ⟨sound.made,fun _ => sound.began rfl,nofun⟩
    · have cancelling : ∀ {n : Monitor}, Sound o n → n.checks c = some (.fetching phase) →
          Sound o (n.goto c (.cancelling phase status (retryMs retry m.clock))) := fun held is =>
        have sound := held.stages c _ is
        held.goto is ⟨sound.made,fun _ => sound.began rfl,nofun⟩
      split
      · exact cancelling (h.note fun _ => rfl) there
      · exact cancelling h there
  | cancelled c succeeds =>
    dsimp only [Monitor.step] at ok
    split at ok <;> cases ok
    rename_i there
    exact h.failing there rfl rfl _
  | malformed c =>
    dsimp only [Monitor.step] at ok
    split at ok <;> cases ok
    rename_i there
    exact h.failing there rfl rfl _
  | body c body =>
    dsimp only [Monitor.step] at ok
    split at ok
    case h_2 => cases ok
    rename_i phase there
    have sound := h.stages c _ there
    split at ok
    · rename_i login
      split at ok <;> cases ok
      · exact h.goto there ⟨fun used is => by simp [Stage.made] at is,nofun,nofun⟩
      · have kept : ∀ {n : Monitor}, Sound o n → n.checks c = some (.reading phase) →
            Sound o (n.goto c (.starting (if phase = Phase.login then .read false else .reread))) := fun held is => by
          have sound := held.stages c _ is
          refine held.goto is ⟨fun used made => ?_,fun _ => sound.began rfl,nofun⟩
          cases phase with
          | login | relogin => cases made; exact sound.made _ rfl
          | read | reread => cases login
        exact kept (h.same rfl rfl rfl rfl (.inl rfl)) there
    · split at ok <;> cases ok
      · exact h.failing there rfl rfl _
      · rename_i snapshot parsed
        have noted := h.note (e := .listed c body) fun _ => rfl
        refine noted.goto there ⟨nofun,fun _ => (noted.stages c _ there).began rfl,fun other same => ?_⟩
        cases same
        exact ⟨body,List.mem_cons_self,parsed⟩
  | catch_ c =>
    dsimp only [Monitor.step] at ok
    split at ok <;> cases ok
    exact h.catch_ (by assumption)
  | publish c =>
    dsimp only [Monitor.step] at ok
    split at ok <;> cases ok
    exact h.publish (by assumption)
  | saved c handled =>
    dsimp only [Monitor.step] at ok
    split at ok <;> cases ok
    rename_i there
    split
    · exact h.finish there
    · exact h.goto there ⟨fun used is => by simp [Stage.made] at is,nofun,nofun⟩

theorem Sound.initial (clock : Int) (hours : BndHours) : Sound o (initial o clock hours) where
  single _ _ at_ := absurd rfl at_
  flight _ at_ := absurd rfl at_
  fresh _ _ := ⟨rfl,fun _ mem => absurd mem List.not_mem_nil⟩
  stages _ _ at_ := nomatch at_
  bounds _ := ⟨Nat.zero_le _,Nat.zero_le _⟩

/-! ### What a step asks and publishes -/

/-- The log and the pending orders as before, or one event more that is no request. -/
structure Silent (m t : Monitor) : Prop where
  log : t.log = m.log ∨ ∃ e, t.log = e::m.log ∧ ∀ c, e.requests c = false
  pendingOrders : t.status.pendingOrders = m.status.pendingOrders

theorem silentCall (m : Monitor) : Silent m (m.call o).1 := by
  unfold Monitor.call
  split <;> exact ⟨.inl rfl,rfl⟩

theorem silentProceed (m : Monitor) (c : Nat) : Silent m (m.proceed wall c) := by
  unfold Monitor.proceed
  split
  · exact ⟨.inl rfl,rfl⟩
  split
  · exact ⟨.inl rfl,rfl⟩
  split
  · exact ⟨.inl rfl,rfl⟩
  · exact ⟨.inr ⟨_,rfl,fun _ => rfl⟩,rfl⟩

theorem silentCatch (m : Monitor) (c : Nat) (retry : Bool) (error : CheckError) : Silent m (m.catch_ wall c retry error) := by
  unfold Monitor.catch_
  split
  · exact ⟨.inl rfl,rfl⟩
  split
  · split <;> exact ⟨.inl rfl,rfl⟩
  · dsimp only
    split
    · exact ⟨.inr ⟨_,rfl,fun _ => rfl⟩,rfl⟩
    split <;> exact ⟨.inr ⟨_,rfl,fun _ => rfl⟩,rfl⟩

theorem stepCases {a : Action} (ok : m.step wall o a = some t) : Silent m t ∨
    (∃ c phase, a = .request c ∧ m.checks c = some (.starting phase) ∧ m.stopped = false ∧ m.open_ wall = true ∧
      t.log = .requested c phase.kind m.clock::m.log ∧ t.status = m.status) ∨
    ∃ c snapshot, a = .publish c ∧ m.checks c = some (.received snapshot) ∧ m.stopped = false ∧ m.open_ wall = true ∧
      t.log = m.log ∧ t.status.pendingOrders = snapshot.pendingOrders := by
  cases a with
  | elapse | stop =>
    cases ok
    exact .inl ⟨.inl rfl,rfl⟩
  | setHours =>
    dsimp only [Monitor.step] at ok
    split at ok <;> cases ok
    exact .inl ⟨.inl rfl,rfl⟩
  | start =>
    dsimp only [Monitor.step] at ok
    split at ok
    · cases ok
      exact .inl ⟨.inl rfl,rfl⟩
    split at ok <;> cases ok
    · exact .inl ⟨.inl rfl,rfl⟩
    · have silent := silentCall (o := o) { m with started := true }
      exact .inl ⟨silent.log,silent.pendingOrders⟩
  | fire =>
    dsimp only [Monitor.step] at ok
    split at ok
    · split at ok <;> cases ok
      have silent := silentCall (o := o) m
      exact .inl ⟨silent.log,silent.pendingOrders⟩
    · cases ok
  | tickDone =>
    dsimp only [Monitor.step] at ok
    split at ok
    · split at ok <;> cases ok
      exact .inl ⟨.inl rfl,rfl⟩
    · cases ok
  | check =>
    cases ok
    exact .inl (silentCall m)
  | proceed c =>
    dsimp only [Monitor.step] at ok
    split at ok <;> cases ok
    exact .inl (silentProceed m c)
  | beforeFails | cancelled | malformed | saved =>
    dsimp only [Monitor.step] at ok
    split at ok <;> cases ok
    first | exact .inl ⟨.inl rfl,rfl⟩ | (split <;> exact .inl ⟨.inl rfl,rfl⟩)
  | request c =>
    dsimp only [Monitor.step] at ok
    split at ok <;> cases ok
    rename_i phase there
    split
    · exact .inl ⟨.inl rfl,rfl⟩
    split
    · exact .inl ⟨.inl rfl,rfl⟩
    · rename_i running isOpen
      exact .inr (.inl ⟨c,phase,rfl,there,by simpa using running,by simpa using isOpen,rfl,rfl⟩)
  | fetchFails c =>
    dsimp only [Monitor.step] at ok
    split at ok <;> cases ok <;> exact .inl ⟨.inl rfl,rfl⟩
  | headers c status retry =>
    dsimp only [Monitor.step] at ok
    split at ok
    case h_2 => cases ok
    split at ok <;> cases ok
    · exact .inl ⟨.inl rfl,rfl⟩
    split
    · exact .inl ⟨.inr ⟨_,rfl,fun _ => rfl⟩,rfl⟩
    · exact .inl ⟨.inl rfl,rfl⟩
  | body c body =>
    dsimp only [Monitor.step] at ok
    split at ok
    case h_2 => cases ok
    split at ok
    · split at ok <;> cases ok <;> exact .inl ⟨.inl rfl,rfl⟩
    · split at ok <;> cases ok
      · exact .inl ⟨.inl rfl,rfl⟩
      · exact .inl ⟨.inr ⟨_,rfl,fun _ => rfl⟩,rfl⟩
  | catch_ c =>
    dsimp only [Monitor.step] at ok
    split at ok <;> cases ok
    exact .inl (silentCatch m c _ _)
  | publish c =>
    dsimp only [Monitor.step] at ok
    split at ok <;> cases ok
    rename_i snapshot there
    unfold Monitor.publish
    split
    · exact .inl ⟨.inl rfl,rfl⟩
    split
    · exact .inl ⟨.inl rfl,rfl⟩
    · rename_i running isOpen
      exact .inr (.inr ⟨c,snapshot,rfl,there,by simpa using running,by simpa using isOpen,rfl,rfl⟩)

theorem publishedPending (m : Monitor) : (m.getStatus wall o).pendingOrders = m.status.pendingOrders := by
  unfold Monitor.getStatus
  split
  · rfl
  · split <;> rfl

/-- What holds of a request when it is made. -/
structure Permitted (wall : Int → Int) (o : BndOptions) (m : Monitor) (c : Nat) (at_ : Int) : Prop where
  enabled : o.enabled = true ∧ BndOptions.configured o = true
  running : m.stopped = false
  now : at_ = m.clock
  open_ : (getBndSchedule wall m.hours at_).open_ = true
  began : ∃ began, .began c began ∈ m.log ∧ m.notBefore ≤ began
  alone : ∀ d, m.checks d ≠ none → d = c

theorem monitorSafety (wall : Int → Int) (o : BndOptions) (clock : Int) (hours : BndHours) {m : Monitor}
    (reached : Transition.Reachable (step wall o) (initial o clock hours) m) :
    (∀ a t c kind at_, m.step wall o a = some t → t.log = .requested c kind at_::m.log → Permitted wall o m c at_) ∧
      (∀ c, m.log.countP (Event.requests c) ≤ 3 ∧ m.log.countP (Event.logins c) ≤ 1) ∧
      ∀ a t, m.step wall o a = some t → (t.getStatus wall o).pendingOrders ≠ (m.getStatus wall o).pendingOrders →
        ∃ c body snapshot, a = .publish c ∧ .listed c body ∈ m.log ∧ parseBndObservation body = .ok snapshot ∧ m.stopped = false ∧
          (getBndSchedule wall m.hours m.clock).open_ = true ∧ (t.getStatus wall o).pendingOrders = snapshot.pendingOrders := by
  have sound : Sound o m := reached.invariant (Sound.initial clock hours) fun _ _ _ sound taken => sound.step taken
  refine ⟨fun a t c kind at_ taken made => ?_,sound.bounds,fun a t taken changed => ?_⟩
  · rcases stepCases taken with silent | ⟨d,phase,_,there,running,isOpen,log,_⟩ | ⟨d,snapshot,_,_,_,_,log,_⟩
    · rcases silent.log with same | ⟨e,log,quiet⟩
      · exact absurd (congrArg List.length (same.symm.trans made)) (by simp)
      · cases (List.cons.inj (log.symm.trans made)).1
        exact absurd (quiet c) (by simp [Event.requests])
    · cases (List.cons.inj (log.symm.trans made)).1
      have busy : m.checks c ≠ none := by simp [there]
      exact ⟨(sound.flight c busy).2,running,rfl,isOpen,(sound.stages c _ there).began rfl,fun d other => sound.single d c other busy⟩
    · exact absurd (congrArg List.length (log.symm.trans made)) (by simp)
  · rw [publishedPending,publishedPending] at changed
    rcases stepCases taken with silent | ⟨_,_,_,_,_,_,_,status⟩ | ⟨c,snapshot,rfl,there,running,isOpen,_,pending⟩
    · exact absurd silent.pendingOrders changed
    · exact absurd (congrArg BndStatus.pendingOrders status) changed
    · obtain ⟨body,listed,parsed⟩ := (sound.stages c _ there).listed snapshot rfl
      exact ⟨c,body,snapshot,rfl,listed,parsed,running,isOpen,(publishedPending t).trans pending⟩

/-! A morning with an expired session: three requests, one of them a login. -/

def sampleWall (time : Int) : Int := time - 4*60*60000

def sampleOptions : BndOptions := ⟨true,"shop@example.test","synthetic"⟩

/-- Noon of a Thursday in October 2026, in Toronto. -/
def sampleNoon : Int := 1792684800000

def sampleSession : Body := .object [("token",.text "session")]

def sampleList : Body := .array [.object [("id",.number 1),("number_id",.number 1001),("is_en_route",.bool false)]]

def firstCheck : List Action :=
  [.check,.proceed 0,.request 0,.headers 0 200 .absent,.body 0 sampleSession,.request 0,.headers 0 200 .absent,.body 0 (.array []),.publish 0,
    .saved 0 true]

def expiredSession : List Action :=
  firstCheck ++ [Action.elapse 60000,.check,.check,.proceed 1,.request 1,.headers 1 401 .absent,.cancelled 1 true,.catch_ 1,.request 1,
    .headers 1 200 .absent,.body 1 sampleSession,.request 1,.headers 1 200 .absent,.body 1 sampleList,.publish 1]

theorem expiredSessionSafe : ∃ m, Transition.Reachable (step sampleWall sampleOptions) (initial sampleOptions sampleNoon fallbackHours) m ∧
    m.log.countP (Event.requests 1) = 3 ∧ (m.getStatus sampleWall sampleOptions).pendingOrders = [⟨"1","1001"⟩] ∧
      ∀ c, m.log.countP (Event.requests c) ≤ 3 ∧ m.log.countP (Event.logins c) ≤ 1 := by
  have ends : (Transition.run (step sampleWall sampleOptions) (initial sampleOptions sampleNoon fallbackHours) expiredSession).map
      (fun m => (m.log.countP (Event.requests 1),(m.getStatus sampleWall sampleOptions).pendingOrders)) = some (3,[⟨"1","1001"⟩]) := by
    decide +kernel
  obtain ⟨m,ran,shape⟩ := Option.map_eq_some_iff.mp ends
  obtain ⟨requests,pending⟩ := Prod.mk.inj shape
  have reached := Transition.runReachable .start ran
  exact ⟨m,reached,requests,pending,(monitorSafety sampleWall sampleOptions sampleNoon fallbackHours reached).2.1⟩

end Monitor
end BndMonitor
end SpeedySweeties
