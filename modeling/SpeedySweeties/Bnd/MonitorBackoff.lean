import SpeedySweeties.Bnd.MonitorSafety

/-! The back-off of the monitor. A failure that is handled while the schedule is open sets
the instant before which no check begins; one that is handled after closing only pauses, and
what the provider asked for is forgotten. -/
namespace SpeedySweeties
namespace BndMonitor
open Bnd

/-- Until when a failure forbids requests. -/
def Event.barrier : Event → Option Int
  | .failed _ .authentication at_ => some (at_ + bndMaxRetryMs)
  | .limited _ until_ => some until_
  | _ => none

def Respects (later earlier : Event) : Prop :=
  ∀ c kind at_ until_, later = .requested c kind at_ → earlier.barrier = some until_ → until_ ≤ at_

/-- The wait that the failure of a check in flight has still to set. -/
def Stage.owes (stage : Stage) (clock until_ : Int) : Prop :=
  match stage with
  | .cancelling _ status retry => status = 429 ∧ until_ ≤ clock + retryDelay retry
  | .failing _ (.monitor .rateLimited ms) => until_ ≤ clock + ms
  | _ => False

def Stage.Begun : Stage → Prop
  | .before => False
  | _ => True

theorem Stage.Begun.ne {stage : Stage} (h : stage.Begun) : stage ≠ .before := by
  rintro rfl
  exact h

theorem Stage.owes.later {stage : Stage} {clock until_ : Int} (h : stage.owes clock until_) (ms : Nat) : stage.owes (clock + ms) until_ := by
  unfold Stage.owes at h ⊢
  split at h
  · exact ⟨h.1,by omega⟩
  · have h : until_ ≤ clock + _ := h
    show until_ ≤ clock + ms + _
    omega
  · exact h.elim

/-- What a failure must still reach: the outer catch, for a refusal or a rate limit. -/
def severe (retry : Bool) (error : CheckError) : Bool := (error.refused && !retry) || error.code = .rateLimited

theorem mildFree {retry : Bool} {error : CheckError} (mild : severe retry error = false) (last : ¬ (retry = true ∧ error.refused = true)) :
    (∀ c at_, (Event.failed c error.code at_).barrier = none) ∧ ∀ clock until_, ¬ (Stage.failing retry error).owes clock until_ := by
  cases error with
  | monitor code ms =>
    cases code with
    | authentication => cases retry <;> simp_all [severe,CheckError.refused]
    | rateLimited => simp [severe,CheckError.code] at mild
    | connection | response => exact ⟨fun _ _ => rfl,fun _ _ => id⟩
  | paused | other => exact ⟨fun _ _ => rfl,fun _ _ => id⟩

namespace Monitor
variable {wall : Int → Int} {o : BndOptions} {m t : Monitor} {c : Nat} {stage : Stage}

/-- A failure by authentication or rate limit is handled before the schedule closes, and the
answer of a rate limit can be cancelled. -/
def Handled (wall : Int → Int) (m : Monitor) : Action → Prop
  | .catch_ c =>
    match m.checks c with
    | some (.failing retry error) => severe retry error = true → m.stopped = true ∨ m.open_ wall = true
    | _ => True
  | .cancelled c succeeds =>
    match m.checks c with
    | some (.cancelling _ status _) => status = 429 → succeeds = true
    | _ => True
  | _ => True

instance (wall : Int → Int) (m : Monitor) (a : Action) : Decidable (Handled wall m a) := by
  unfold Handled
  split
  · split <;> infer_instance
  · split <;> infer_instance
  · infer_instance

structure Barred (m : Monitor) : Prop where
  waits : (∀ c stage, m.checks c = some stage → stage = .before) → ∀ e ∈ m.log, ∀ until_, e.barrier = some until_ →
    m.stopped = true ∨ until_ ≤ m.clock ∨ until_ ≤ m.notBefore
  past : ∀ c stage, m.checks c = some stage → stage ≠ .before → ∀ e ∈ m.log, ∀ until_, e.barrier = some until_ →
    m.stopped = true ∨ until_ ≤ m.clock ∨ stage.owes m.clock until_
  respects : m.log.Pairwise Respects

theorem Barred.same (h : Barred m) (clock : t.clock = m.clock) (checks : t.checks = m.checks) (log : t.log = m.log)
    (stopped : m.stopped = true → t.stopped = true) (notBefore : t.notBefore = m.notBefore) : Barred t where
  waits before e mem until_ is := by
    rw [checks] at before
    rw [log] at mem
    rw [clock,notBefore]
    exact (h.waits before e mem until_ is).imp_left stopped
  past c stage there other e mem until_ is := by
    rw [checks] at there
    rw [log] at mem
    rw [clock]
    exact (h.past c stage there other e mem until_ is).imp_left stopped
  respects := log ▸ h.respects

theorem Barred.note (h : Barred m) {e : Event} (free : e.barrier = none) (quiet : ∀ c, e.requests c = false) : Barred (m.note e) where
  waits before e' mem until_ is := by
    rcases List.mem_cons.mp mem with rfl | mem
    · exact nomatch free.symm.trans is
    · exact h.waits before e' mem until_ is
  past c stage there other e' mem until_ is := by
    rcases List.mem_cons.mp mem with rfl | mem
    · exact nomatch free.symm.trans is
    · exact h.past c stage there other e' mem until_ is
  respects := List.pairwise_cons.mpr ⟨fun _ _ d kind at_ _ same _ => (by
    subst same
    exact absurd (quiet d) (by simp [Event.requests])),h.respects⟩

theorem Barred.noteStopped (h : Barred m) (stopped : m.stopped = true) {e : Event} (quiet : ∀ c, e.requests c = false) : Barred (m.note e) where
  waits _ _ _ _ _ := .inl stopped
  past _ _ _ _ _ _ _ _ := .inl stopped
  respects := List.pairwise_cons.mpr ⟨fun _ _ d kind at_ _ same _ => (by
    subst same
    exact absurd (quiet d) (by simp [Event.requests])),h.respects⟩

theorem Barred.goto (h : Barred m) (sound : Sound o m) {old : Stage} (there : m.checks c = some old) (other : old ≠ .before)
    (owes : ∀ until_, old.owes m.clock until_ → stage.owes m.clock until_) (next : stage ≠ .before) : Barred (m.goto c stage) where
  waits before := absurd (before c stage (Function.update_self ..)) next
  past d x at_ _ e mem until_ is := by
    rcases gotoCases at_ with ⟨_,rfl⟩ | ⟨differ,busy⟩
    · exact (h.past c old there other e mem until_ is).imp_right (Or.imp_right (owes until_))
    · exact absurd (sound.single d c (by simp [busy]) (by simp [there])) differ
  respects := h.respects

theorem Barred.free (h : Barred m) (sound : Sound o m) {old : Stage} (there : m.checks c = some old) (began : old.Begun)
    (nothing : ∀ until_, ¬ old.owes m.clock until_) (next : stage.Begun) : Barred (m.goto c stage) :=
  h.goto sound there began.ne (fun until_ owes => absurd owes (nothing until_)) next.ne

theorem Barred.finish (h : Barred m) (sound : Sound o m) {old : Stage} (there : m.checks c = some old)
    (free : ∀ until_, old.owes m.clock until_ → m.stopped = true) : Barred (m.finish c) where
  waits _ e mem until_ is := by
    by_cases before : old = .before
    · subst before
      refine h.waits (fun d stage busy => ?_) e mem until_ is
      have same := sound.single d c (by simp [busy]) (by simp [there])
      subst same
      exact Option.some.inj (busy.symm.trans there)
    · rcases h.past c old there before e mem until_ is with stopped | past | owed
      · exact .inl stopped
      · exact .inr (.inl past)
      · exact .inl (free until_ owed)
  past d _ at_ := nomatch (sound.finished there d).symm.trans at_
  respects := h.respects

theorem Barred.call (h : Barred m) (sound : Sound o m) : Barred (m.call o).1 := by
  unfold Monitor.call
  split
  · exact h
  rename_i free
  have idle : ∀ d, m.checks d = none := by
    intro d
    by_contra busy
    exact free (.inr (.inl (sound.flight d busy).1))
  have waits := h.waits fun d stage busy => nomatch (idle d).symm.trans busy
  refine ⟨fun _ => waits,fun d stage at_ other => ?_,h.respects⟩
  rcases gotoCases at_ with ⟨_,rfl⟩ | ⟨_,busy⟩
  · exact absurd rfl other
  · exact nomatch (idle d).symm.trans busy

theorem Barred.runTick (h : Barred m) (sound : Sound o m) : Barred (m.runTick o) := (h.call sound).same rfl rfl rfl id rfl

theorem Barred.proceed (h : Barred m) (sound : Sound o m) (there : m.checks c = some .before) : Barred (m.proceed wall c) := by
  have free : ∀ until_, Stage.before.owes m.clock until_ → m.stopped = true := fun _ owes => owes.elim
  unfold Monitor.proceed
  split
  · exact h.finish sound there free
  split
  · exact (h.finish sound there free).same rfl rfl rfl id rfl
  split
  · exact (h.finish sound there free).same rfl rfl rfl id rfl
  · rename_i due
    have resumed : Barred m.unpause := h.same rfl rfl rfl id rfl
    have noted := resumed.note (e := .began c m.clock) rfl fun _ => rfl
    have mine : ∀ d stage, m.checks d = some stage → stage = .before := fun d stage busy => by
      have same := sound.single d c (by simp [busy]) (by simp [there])
      subst same
      exact Option.some.inj (busy.symm.trans there)
    refine ⟨fun before => absurd (before c _ (Function.update_self ..)) nofun,fun d x at_ other e mem until_ is => ?_,noted.respects⟩
    refine (noted.waits mine e mem until_ is).imp_right fun reached => .inl ?_
    rcases reached with past | waited
    · exact past
    · exact Int.le_trans waited (Int.not_lt.mp due)

theorem Barred.request (h : Barred m) {phase : Phase} (there : m.checks c = some (.starting phase))
    (running : m.stopped = false) : Barred ((m.note (.requested c phase.kind m.clock)).goto c (.fetching phase)) := by
  have past : ∀ e ∈ m.log, ∀ until_, e.barrier = some until_ → until_ ≤ m.clock := by
    intro e mem until_ is
    rcases h.past c _ there nofun e mem until_ is with stopped | past | owed
    · exact nomatch running.symm.trans stopped
    · exact past
    · exact owed.elim
  refine ⟨fun before => absurd (before c _ (Function.update_self ..)) nofun,fun d x at_ other e mem until_ is => ?_,
    List.pairwise_cons.mpr ⟨fun earlier mem d kind at_ until_ same is => ?_,h.respects⟩⟩
  · rcases List.mem_cons.mp mem with rfl | mem
    · cases is
    · exact .inr (.inl (past e mem until_ is))
  · cases same
    exact past earlier mem until_ is

theorem Barred.limited (h : Barred m) (sound : Sound o m) {phase : Phase} {retry : Option Int} (there : m.checks c = some (.fetching phase)) :
    Barred ((m.note (.limited c (m.clock + retryDelay retry))).goto c (.cancelling phase 429 retry)) := by
  refine ⟨fun before => absurd (before c _ (Function.update_self ..)) nofun,fun d x at_ other e mem until_ is => ?_,
    List.pairwise_cons.mpr ⟨fun _ _ _ _ _ _ same => (nomatch same),h.respects⟩⟩
  rcases gotoCases at_ with ⟨_,rfl⟩ | ⟨differ,busy⟩
  · rcases List.mem_cons.mp mem with rfl | mem
    · cases is
      exact .inr (.inr ⟨rfl,Int.le_refl _⟩)
    · rcases h.past c _ there nofun e mem until_ is with stopped | past | owed
      · exact .inl stopped
      · exact .inr (.inl past)
      · exact owed.elim
  · exact absurd (sound.single d c (by simp [show m.checks d = some x from busy]) (by simp [there])) differ

theorem backoffPositive (failures : Nat) : 0 ≤ backoff failures := by
  have power : (0 : Int) ≤ 2^(failures - 1) := Int.pow_nonneg (by decide)
  exact Int.le_min.mpr ⟨by decide,Int.mul_nonneg (Int.natCast_nonneg _) power⟩

theorem Barred.fail (h : Barred m) (sound : Sound o m) {retry : Bool} {error : CheckError} (there : m.checks c = some (.failing retry error)) :
    Barred (((m.note (.failed c error.code m.clock)).fail wall error).finish c) := by
  have idle := sound.finished there
  refine ⟨fun _ e mem until_ is => ?_,fun d _ at_ => (nomatch (idle d).symm.trans at_),
    List.pairwise_cons.mpr ⟨fun _ _ _ _ _ _ same => (nomatch same),h.respects⟩⟩
  have positive := backoffPositive (min (m.failures + 1) 5)
  show m.stopped = true ∨ until_ ≤ m.clock ∨ until_ ≤ m.clock +
    max (backoff (min (m.failures + 1) 5)) (max error.retryMs (if error.code = .authentication then bndMaxRetryMs else 0))
  rcases List.mem_cons.mp mem with rfl | mem
  · cases code : error.code <;> simp only [Event.barrier,code] at is <;> cases is
    simp only [↓reduceIte]
    omega
  · rcases h.past c _ there nofun e mem until_ is with stopped | past | owed
    · exact .inl stopped
    · exact .inr (.inl past)
    · cases error with
      | monitor code ms =>
        cases code <;> first | exact owed.elim | skip
        have owed : until_ ≤ m.clock + ms := owed
        simp only [CheckError.retryMs]
        omega
      | paused | other => exact owed.elim

theorem Barred.catch_ (h : Barred m) (sound : Sound o m) {retry : Bool} {error : CheckError}
    (there : m.checks c = some (.failing retry error)) (handled : severe retry error = true → m.stopped = true ∨ m.open_ wall = true) :
    Barred (m.catch_ wall c retry error) := by
  unfold Monitor.catch_
  split
  · rename_i again
    have fresh : Barred { m with token := none } := h.same rfl rfl rfl id rfl
    have freshSound : Sound o { m with token := none } := sound.same rfl rfl rfl rfl (.inl rfl)
    refine fresh.goto freshSound there nofun (fun until_ owes => ?_) nofun
    cases error with
    | monitor code ms =>
      cases code <;> first | exact owes.elim | exact nomatch again.2.1
    | paused | other => exact owes.elim
  rename_i last
  split
  · rename_i paused
    subst paused
    split
    · exact h.finish sound there fun _ owes => owes.elim
    · exact (h.finish sound there fun _ owes => owes.elim).same rfl rfl rfl id rfl
  have quiet : ∀ d, (Event.failed c error.code m.clock).requests d = false := fun _ => rfl
  have noted : Sound o (m.note (.failed c error.code m.clock)) := sound.note quiet
  dsimp only
  split
  · rename_i stopped
    exact (h.noteStopped stopped quiet).finish noted there fun _ _ => stopped
  rename_i running
  split
  · rename_i closed
    have mild : severe retry error = false := by
      by_contra not
      rcases handled (by simpa using not) with stopped | isOpen
      · exact running stopped
      · simp [isOpen] at closed
    obtain ⟨free,owesNothing⟩ := mildFree mild fun again => last ⟨again.1,again.2,by simpa using running⟩
    exact ((h.note (e := .failed c error.code m.clock) (free _ _) quiet).finish noted there fun _ owes =>
      (owesNothing _ _ owes).elim).same rfl rfl rfl id rfl
  · exact h.fail sound there

theorem Barred.publish (h : Barred m) (sound : Sound o m) {snapshot : BndSnapshot} (there : m.checks c = some (.received snapshot)) :
    Barred (m.publish wall c snapshot) := by
  unfold Monitor.publish
  split
  · exact h.finish sound there fun _ owes => owes.elim
  split
  · exact (h.finish sound there fun _ owes => owes.elim).same rfl rfl rfl id rfl
  · have saving : Barred (m.goto c .saving) := h.free sound there trivial (fun _ => id) trivial
    exact ⟨fun before => absurd (before c _ (Function.update_self ..)) nofun,saving.past,saving.respects⟩

theorem Barred.step (h : Barred m) (sound : Sound o m) {a : Action} (handled : Handled wall m a) (ok : m.step wall o a = some t) : Barred t := by
  cases a with
  | elapse ms =>
    cases ok
    refine ⟨fun before e mem until_ is => ?_,fun c stage there other e mem until_ is => ?_,h.respects⟩
    · rcases h.waits before e mem until_ is with stopped | past | waited
      · exact .inl stopped
      · exact .inr (.inl (by show until_ ≤ m.clock + ms; omega))
      · exact .inr (.inr waited)
    · rcases h.past c stage there other e mem until_ is with stopped | past | owed
      · exact .inl stopped
      · exact .inr (.inl (by show until_ ≤ m.clock + ms; omega))
      · exact .inr (.inr (owed.later ms))
  | setHours hours =>
    dsimp only [Monitor.step] at ok
    split at ok <;> cases ok
    exact h.same rfl rfl rfl id rfl
  | start =>
    dsimp only [Monitor.step] at ok
    have begun : Barred { m with started := true } := h.same rfl rfl rfl id rfl
    have begunSound : Sound o { m with started := true } := sound.same rfl rfl rfl rfl (.inl rfl)
    split at ok
    · cases ok
      exact h
    split at ok <;> cases ok
    · exact begun
    · exact begun.runTick begunSound
  | fire =>
    dsimp only [Monitor.step] at ok
    split at ok
    · split at ok <;> cases ok
      exact h.runTick sound
    · cases ok
  | tickDone refreshAt =>
    dsimp only [Monitor.step] at ok
    split at ok
    · split at ok <;> cases ok
      exact h.same rfl rfl rfl id rfl
    · cases ok
  | stop =>
    cases ok
    exact h.same rfl rfl rfl (fun _ => rfl) rfl
  | check =>
    cases ok
    exact h.call sound
  | proceed c =>
    dsimp only [Monitor.step] at ok
    split at ok <;> cases ok
    exact h.proceed sound (by assumption)
  | beforeFails c =>
    dsimp only [Monitor.step] at ok
    split at ok <;> cases ok
    rename_i there
    exact (h.finish sound there fun _ owes => owes.elim).same rfl rfl rfl id rfl
  | request c =>
    dsimp only [Monitor.step] at ok
    split at ok <;> cases ok
    rename_i phase there
    split
    · exact h.free sound there trivial (fun _ => id) trivial
    rename_i running
    split
    · exact h.free sound there trivial (fun _ => id) trivial
    · exact h.request there (by simpa using running)
  | fetchFails c =>
    dsimp only [Monitor.step] at ok
    split at ok <;> cases ok
    · rename_i there
      exact h.free sound there trivial (fun _ => id) trivial
    · rename_i there
      exact h.free sound there trivial (fun _ => id) trivial
  | headers c status retry =>
    dsimp only [Monitor.step] at ok
    split at ok
    case h_2 => cases ok
    rename_i phase there
    split at ok <;> cases ok
    · exact h.free sound there trivial (fun _ => id) trivial
    split
    · rename_i limited
      subst limited
      exact h.limited sound there
    · exact h.free sound there trivial (fun _ => id) trivial
  | cancelled c succeeds =>
    dsimp only [Monitor.step] at ok
    split at ok <;> cases ok
    rename_i phase status retry there
    have cancels : status = 429 → succeeds = true := by simpa [Handled,there] using handled
    refine h.goto sound there (Stage.Begun.ne trivial) (fun until_ owes => ?_) (Stage.Begun.ne trivial)
    obtain ⟨limited,le⟩ := owes
    subst limited
    rw [cancels rfl]
    exact le
  | malformed c =>
    dsimp only [Monitor.step] at ok
    split at ok <;> cases ok
    rename_i there
    exact h.free sound there trivial (fun _ => id) trivial
  | body c body =>
    dsimp only [Monitor.step] at ok
    split at ok
    case h_2 => cases ok
    rename_i phase there
    split at ok
    · split at ok <;> cases ok
      · exact h.free sound there trivial (fun _ => id) trivial
      · rename_i token _
        have kept : Barred { m with token := if m.stopped then m.token else some token } := h.same rfl rfl rfl id rfl
        have keptSound : Sound o { m with token := if m.stopped then m.token else some token } := sound.same rfl rfl rfl rfl (.inl rfl)
        exact kept.free keptSound there trivial (fun _ => id) trivial
    · split at ok <;> cases ok
      · exact h.free sound there trivial (fun _ => id) trivial
      · have noted := h.note (e := .listed c body) rfl fun _ => rfl
        exact noted.free (sound.note fun _ => rfl) there trivial (fun _ => id) trivial
  | catch_ c =>
    dsimp only [Monitor.step] at ok
    split at ok <;> cases ok
    rename_i retry error there
    exact h.catch_ sound there (by simpa [Handled,there] using handled)
  | publish c =>
    dsimp only [Monitor.step] at ok
    split at ok <;> cases ok
    exact h.publish sound (by assumption)
  | saved c succeeds =>
    dsimp only [Monitor.step] at ok
    split at ok <;> cases ok
    rename_i there
    split
    · exact h.finish sound there fun _ owes => owes.elim
    · exact h.free sound there trivial (fun _ => id) trivial

theorem Barred.initial (clock : Int) (hours : BndHours) : Barred (initial o clock hours) :=
  ⟨fun _ _ mem => absurd mem List.not_mem_nil,fun _ _ at_ => (nomatch at_),.nil⟩

/-- Every run that handles its refusals and rate limits before the schedule closes. -/
theorem backoffRespected (wall : Int → Int) (o : BndOptions) (clock : Int) (hours : BndHours) {m : Monitor}
    (reached : Transition.ReachableUnder (step wall o) (Handled wall) (initial o clock hours) m) : m.log.Pairwise Respects := by
  have both : Sound o m ∧ Barred m := reached.invariant (I := fun m => Sound o m ∧ Barred m) ⟨Sound.initial clock hours,Barred.initial clock hours⟩
    fun _ _ _ held handled taken => ⟨held.1.step taken,held.2.step held.1 handled taken⟩
  exact both.2.respects

def limitedCheck (c : Nat) (retry : Int) : List Action :=
  [.check,.proceed c,.request c,.headers c 429 (.seconds retry)]

/-- Two hours to wait, an early check that does not ask, and one that does. -/
def limitedAtNoon : List Action :=
  firstCheck ++ [Action.elapse 60000] ++ limitedCheck 1 7200000 ++ [Action.cancelled 1 true,.catch_ 1,.elapse 3600000,.check,.proceed 2,.elapse 3600000,.check,
    .proceed 3,.request 3]

theorem limitedAtNoonWaits : ∃ m, Transition.ReachableUnder (step sampleWall sampleOptions) (Handled sampleWall)
    (initial sampleOptions sampleNoon fallbackHours) m ∧ m.log.countP (Event.requests 2) = 0 ∧ m.log.countP (Event.requests 3) = 1 ∧
      m.log.Pairwise Respects := by
  have ends : (Transition.run (step sampleWall sampleOptions) (initial sampleOptions sampleNoon fallbackHours) limitedAtNoon).map
      (fun m => (m.log.countP (Event.requests 2),m.log.countP (Event.requests 3))) = some (0,1) := by decide +kernel
  obtain ⟨m,ran,shape⟩ := Option.map_eq_some_iff.mp ends
  obtain ⟨early,late⟩ := Prod.mk.inj shape
  have allowed : Transition.AllowedRun (step sampleWall sampleOptions) (Handled sampleWall)
      (initial sampleOptions sampleNoon fallbackHours) limitedAtNoon := by decide +kernel
  have reached := Transition.runReachableUnder .start allowed ran
  exact ⟨m,reached,early,late,backoffRespected sampleWall sampleOptions sampleNoon fallbackHours reached⟩

/-- Asked at five seconds to nine to wait twelve and a half hours, and handled at five past: the
shop opens at half past nine, and the request of the morning comes half an hour too early. -/
def limitedAtClosing : List Action :=
  firstCheck ++ [Action.elapse (9*3600000 - 5000)] ++ limitedCheck 1 (13*3600000) ++ [Action.elapse 10000,.cancelled 1 true,.catch_ 1,.elapse (12*3600000 + 1800000),
    .check,.proceed 2,.request 2]

/-- The last event is a request before the instant of an earlier failure. -/
def early : List Event → Bool
  | .requested _ _ at_::older => older.any fun e => e.barrier.any (at_ < ·)
  | _ => false

theorem earlyDisrespects {log : List Event} (h : early log = true) : ¬ log.Pairwise Respects := by
  intro respects
  unfold early at h
  split at h
  · rename_i c kind at_ older
    obtain ⟨e,mem,barred⟩ := List.any_eq_true.mp h
    obtain ⟨until_,is,before⟩ := (Option.any_eq_true _ _).mp barred
    have reached := (List.pairwise_cons.mp respects).1 e mem c kind at_ until_ rfl is
    have before : at_ < until_ := of_decide_eq_true before
    omega
  · cases h

theorem limitedAtClosingForgets : ¬ ∀ m, Transition.Reachable (step sampleWall sampleOptions)
    (initial sampleOptions sampleNoon fallbackHours) m → m.log.Pairwise Respects := by
  intro respects
  have ends : (Transition.run (step sampleWall sampleOptions) (initial sampleOptions sampleNoon fallbackHours) limitedAtClosing).map
      (early ·.log) = some true := by decide +kernel
  obtain ⟨m,ran,early⟩ := Option.map_eq_some_iff.mp ends
  exact earlyDisrespects early (respects m (Transition.runReachable .start ran))

end Monitor
end BndMonitor
end SpeedySweeties
