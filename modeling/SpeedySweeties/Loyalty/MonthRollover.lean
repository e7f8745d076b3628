import SpeedySweeties.Library.JsText
import SpeedySweeties.Library.WallClock
import SpeedySweeties.Loyalty.Ledger

/-! The month of the loyalty progress. A request reads its clock first and waits for the lock of
the customer's row then, so what it takes for the current month may be over when it gets there. -/
namespace SpeedySweeties
open Calendar JsText WallClock

variable (z : Zone)

/-- The date that clocks of the loyalty zone show. -/
def loyaltyDate (now : Int) : Civil := civilFromDays (z.minute now/1440)

def getCurrentLoyaltyMonth (now : Int) : String :=
  toString (loyaltyDate z now).year ++ "-" ++ padStart 2 (toString (loyaltyDate z now).month)

/-- Months in the order of the calendar. -/
def monthNumber (now : Int) : Int := 12*(loyaltyDate z now).year + (loyaltyDate z now).month

inductive LoyaltyCall where | createOrder | delivered | snapshot
  deriving DecidableEq, Repr

/-- A request with the reading of its clock. -/
structure LoyaltyRequest where
  call : LoyaltyCall
  now : Int
  deriving DecidableEq, Repr

def LoyaltyRequest.operation (request : LoyaltyRequest) : LoyaltyOperation :=
  match request.call with
  | .createOrder => .createOrder (getCurrentLoyaltyMonth z request.now)
  | .delivered => .delivered (getCurrentLoyaltyMonth z request.now)
  | .snapshot => .snapshot (getCurrentLoyaltyMonth z request.now)

def monthProgram : RowLock.Program LoyaltyCustomer LoyaltyRequest LoyaltyWork where
  start request customer := loyaltyProgram.start (request.operation z) customer
  next := loyaltyProgram.next
  row := loyaltyProgram.row

abbrev LoyaltyState := RowLock.State LoyaltyCustomer LoyaltyRequest LoyaltyWork
abbrev LoyaltyAction := RowLock.Action LoyaltyRequest

def LoyaltyState.initial (customer : LoyaltyCustomer) : LoyaltyState := RowLock.State.initial customer

def LoyaltyState.step (s : LoyaltyState) (a : LoyaltyAction) : Option LoyaltyState := RowLock.State.step (monthProgram z) s a

/-- The later month is the same one or comes after. -/
def NotBefore (earlier later : Option String) : Prop := ∀ a, earlier = some (getCurrentLoyaltyMonth z a) →
  ∃ b, later = some (getCurrentLoyaltyMonth z b) ∧ monthNumber z a ≤ monthNumber z b

/-- Between two states of a run the stored month does not move backwards, and where a single commit lies between
them, of a request whose own time is not after the stored month, it adds to the progress as it was stored. -/
structure MonthKept (s : LoyaltyState) (actions : List LoyaltyAction) (t : LoyaltyState) : Prop where
  month : NotBefore z s.row.loyaltyProgressMonth t.row.loyaltyProgressMonth
  progress : actions = [.commit] → ∀ request w, s.holder = some (request,w) → ∀ stored,
    s.row.loyaltyProgressMonth = some (getCurrentLoyaltyMonth z stored) → monthNumber z request.now ≤ monthNumber z stored →
      t.row = ((request.operation z).mutate s.row false).1

def MonotoneRun (customer : LoyaltyCustomer) (actions : List LoyaltyAction) : Prop :=
  ∀ before part rest s t, actions = before ++ part ++ rest →
    Transition.run (LoyaltyState.step z) (.initial customer) before = some s → Transition.run (LoyaltyState.step z) s part = some t →
      MonthKept z s part t

variable {z}

section Months

theorem paddedMonths : ∀ m n : Fin 13, (padStart 2 (toString (m.val : Int))).length = 2 ∧
    (padStart 2 (toString (m.val : Int)) = padStart 2 (toString (n.val : Int)) → m = n) := by decide +kernel

theorem paddedMonth {m n : Int} (low : 1 ≤ m ∧ m ≤ 12) (high : 1 ≤ n ∧ n ≤ 12) : (padStart 2 (toString m)).length = 2 ∧
    (padStart 2 (toString m) = padStart 2 (toString n) → m = n) := by
  obtain ⟨i,rfl⟩ := Int.eq_ofNat_of_zero_le (show 0 ≤ m by omega)
  obtain ⟨j,rfl⟩ := Int.eq_ofNat_of_zero_le (show 0 ≤ n by omega)
  obtain ⟨length,injective⟩ := paddedMonths ⟨i,by omega⟩ ⟨j,by omega⟩
  exact ⟨length,fun same => by rw [Fin.mk.inj (injective same)]⟩

theorem monthText {a b : Int} : getCurrentLoyaltyMonth z a = getCurrentLoyaltyMonth z b ↔ monthNumber z a = monthNumber z b := by
  have first : 1 ≤ (loyaltyDate z a).month ∧ (loyaltyDate z a).month ≤ 12 := civilMonth _
  have second : 1 ≤ (loyaltyDate z b).month ∧ (loyaltyDate z b).month ≤ 12 := civilMonth _
  unfold getCurrentLoyaltyMonth monthNumber
  constructor
  · intro same
    have texts := congrArg String.toList same
    simp only [String.toList_append] at texts
    have lengths : (padStart 2 (toString (loyaltyDate z a).month)).toList.length = (padStart 2 (toString (loyaltyDate z b).month)).toList.length := by
      rw [String.length_toList,String.length_toList,(paddedMonth first second).1,(paddedMonth second first).1]
    obtain ⟨years,months⟩ := List.append_inj' texts lengths
    have year := intText (String.toList_inj.mp (List.append_cancel_right years))
    have month := (paddedMonth first second).2 (String.toList_inj.mp months)
    rw [year,month]
  · intro same
    have year : (loyaltyDate z a).year = (loyaltyDate z b).year := by omega
    have month : (loyaltyDate z a).month = (loyaltyDate z b).month := by omega
    rw [year,month]

end Months

section Commits
variable {customer : LoyaltyCustomer} {created : Option Int} {s t : LoyaltyState} {a : LoyaltyAction} {request : LoyaltyRequest} {w : LoyaltyWork}

theorem operationMonth (request : LoyaltyRequest) : (request.operation z).currentMonth = getCurrentLoyaltyMonth z request.now := by
  unfold LoyaltyRequest.operation
  cases request.call <;> rfl

theorem resetMonth (row : LoyaltyCustomer) (month : String) : (resetLoyaltyMonthIfNeeded row month).1.loyaltyProgressMonth = some month := by
  unfold resetLoyaltyMonthIfNeeded
  split
  · assumption
  · rfl

theorem mutateMonth {operation : LoyaltyOperation} {row : LoyaltyCustomer} {reset : Bool}
    (current : row.loyaltyProgressMonth = some operation.currentMonth) :
    (operation.mutate row reset).1.loyaltyProgressMonth = some operation.currentMonth := by
  cases operation with
  | createOrder month =>
    simp only [LoyaltyOperation.mutate,redeemReward]
    split <;> exact current
  | delivered month =>
    simp only [LoyaltyOperation.mutate,recordDelivery]
    split <;> rfl
  | snapshot month => exact current

theorem committedWork {row : LoyaltyCustomer} (ran : (monthProgram z).Runs ((monthProgram z).start request row) w)
    (ended : (monthProgram z).next w = none) :
    let current := resetLoyaltyMonthIfNeeded row (getCurrentLoyaltyMonth z request.now)
    w.customer = ((request.operation z).mutate current.1 current.2).1 := by
  have ran : loyaltyProgram.Runs (loyaltyProgram.start (request.operation z) row) w := ran
  have outcome := workOutcome ran
  obtain ⟨operation,customer,phase⟩ := w
  cases phase with
  | finished result =>
    rw [← operationMonth]
    exact outcome.1
  | _ => cases ended

theorem workMonth {row : LoyaltyCustomer} (ran : (monthProgram z).Runs ((monthProgram z).start request row) w)
    (ended : (monthProgram z).next w = none) : w.customer.loyaltyProgressMonth = some (getCurrentLoyaltyMonth z request.now) := by
  rw [committedWork ran ended,← operationMonth]
  exact mutateMonth (resetMonth _ _)

/-- The times that the stored month goes back to, the last one being that of the stored month. -/
def LoyaltyState.times (created : Option Int) (s : LoyaltyState) : List Int := created.toList ++ s.committed.map (·.1.now)

theorem storedMonth (month : customer.loyaltyProgressMonth = created.map (getCurrentLoyaltyMonth z))
    (reached : RowLock.Reachable (monthProgram z) customer s) :
    s.row.loyaltyProgressMonth = (s.times created).getLast?.map (getCurrentLoyaltyMonth z) := by
  refine RowLock.committedInvariant (I := fun committed row =>
    row.loyaltyProgressMonth = (created.toList ++ committed.map (·.1.now)).getLast?.map (getCurrentLoyaltyMonth z)) reached ?_ ?_
  · rw [month]
    cases created <;> rfl
  · intro done row request w _ ran ended
    have last : (monthProgram z).row w = w.customer := rfl
    rw [last,workMonth ran ended,List.map_append,← List.append_assoc,List.map_cons,List.map_nil,List.getLast?_append]
    rfl

theorem stepCommits (taken : s.step z a = some t) : (t.row = s.row ∧ t.committed = s.committed ∧ a ≠ .commit) ∨
    ∃ request w, a = .commit ∧ s.holder = some (request,w) ∧ (monthProgram z).next w = none ∧ t.row = w.customer ∧
      t.committed = s.committed ++ [(request,w)] := by
  cases a with
  | «begin» waiter kind =>
    simp only [LoyaltyState.step,RowLock.State.step] at taken
    split at taken <;> try contradiction
    cases Option.some.inj taken
    exact .inl ⟨rfl,rfl,by simp⟩
  | acquire waiter =>
    obtain ⟨kind,_,taken⟩ := Option.bind_eq_some_iff.mp taken
    split at taken <;> try contradiction
    cases Option.some.inj taken
    exact .inl ⟨rfl,rfl,by simp⟩
  | advance =>
    obtain ⟨⟨kind,w⟩,_,taken⟩ := Option.bind_eq_some_iff.mp taken
    obtain ⟨later,_,taken⟩ := Option.bind_eq_some_iff.mp taken
    cases Option.some.inj taken
    exact .inl ⟨rfl,rfl,by simp⟩
  | commit =>
    obtain ⟨⟨request,w⟩,held,taken⟩ := Option.bind_eq_some_iff.mp taken
    dsimp only at taken
    split at taken <;> try contradiction
    rename_i ended
    cases Option.some.inj taken
    exact .inr ⟨request,w,rfl,held,by simpa using ended,rfl,rfl⟩
  | abort =>
    cases Option.some.inj taken
    exact .inl ⟨rfl,rfl,by simp⟩
  | withdraw waiter =>
    cases Option.some.inj taken
    exact .inl ⟨rfl,rfl,by simp⟩

theorem runCommits {actions : List LoyaltyAction} (ran : Transition.run (LoyaltyState.step z) s actions = some t) :
    s.committed <+: t.committed := by
  induction actions generalizing s with
  | nil =>
    cases Option.some.inj ran
    exact List.prefix_rfl
  | cons a rest ih =>
    obtain ⟨u,taken,later⟩ := Option.bind_eq_some_iff.mp ran
    refine List.IsPrefix.trans ?_ (ih later)
    rcases stepCommits taken with ⟨_,same,_⟩ | ⟨request,w,_,_,_,_,grown⟩
    · exact same ▸ List.prefix_rfl
    · exact grown ▸ List.prefix_append _ _

theorem runReached {actions : List LoyaltyAction} (ran : Transition.run (LoyaltyState.step z) (.initial customer) actions = some s) :
    RowLock.Reachable (monthProgram z) customer s := Transition.runReachable .start ran

theorem timesGrow (grown : s.committed <+: t.committed) : s.times created <+: t.times created :=
  List.prefix_append_right_inj _ |>.mpr (grown.map _)

end Commits

section Runs
variable {customer : LoyaltyCustomer} {created : Option Int} {s t : LoyaltyState} {a : LoyaltyAction}

theorem lastGreatest {number : Int → Int} {xs : List Int} {last : Int} (sorted : xs.Pairwise fun a b => number a ≤ number b)
    (is : xs.getLast? = some last) : ∀ x ∈ xs, number x ≤ number last := by
  obtain ⟨front,rfl⟩ := List.getLast?_eq_some_iff.mp is
  intro x mem
  rcases List.mem_append.mp mem with early | last_
  · exact (List.pairwise_append.mp sorted).2.2 x early last (List.mem_singleton_self last)
  · rw [List.mem_singleton.mp last_]

/-- In the order of the commits the months only go up, so the stored one does. -/
theorem orderedKept (month : customer.loyaltyProgressMonth = created.map (getCurrentLoyaltyMonth z))
    (reached : RowLock.Reachable (monthProgram z) customer s) {part : List LoyaltyAction}
    (ran : Transition.run (LoyaltyState.step z) s part = some t)
    (ordered : (t.times created).Pairwise fun a b => monthNumber z a ≤ monthNumber z b) : MonthKept z s part t where
  month := by
    have reached' : RowLock.Reachable (monthProgram z) customer t := reached.trans (Transition.runReachable .start ran)
    intro stored is
    rw [storedMonth month reached] at is
    obtain ⟨first,last,text⟩ := Option.map_eq_some_iff.mp is
    obtain ⟨rest,grown⟩ : s.times created <+: t.times created := timesGrow (runCommits ran)
    have mem : first ∈ t.times created := by
      rw [← grown]
      exact List.mem_append_left _ (List.mem_of_getLast? last)
    obtain ⟨now,latest⟩ : ∃ now, (t.times created).getLast? = some now :=
      ⟨_,List.getLast?_eq_some_getLast (List.ne_nil_of_mem mem)⟩
    refine ⟨now,by rw [storedMonth month reached',latest]; rfl,?_⟩
    rw [← monthText.mp text]
    exact lastGreatest ordered latest first mem
  progress := by
    rintro rfl request w held stored is early
    obtain ⟨u,taken,same⟩ := Option.bind_eq_some_iff.mp ran
    cases Option.some.inj same
    rcases stepCommits taken with ⟨_,_,other⟩ | ⟨request',w',_,held',ended,row,grown⟩
    · exact absurd rfl other
    cases Option.some.inj (held.symm.trans held')
    rw [storedMonth month reached] at is
    obtain ⟨last,latest,text⟩ := Option.map_eq_some_iff.mp is
    have next : monthNumber z last ≤ monthNumber z request.now := by
      rw [LoyaltyState.times,grown,List.map_append,← List.append_assoc] at ordered
      exact (List.pairwise_append.mp ordered).2.2 last (List.mem_of_getLast? latest) _ (by simp)
    have equal : getCurrentLoyaltyMonth z last = getCurrentLoyaltyMonth z request.now := by
      rw [monthText]
      exact Int.le_antisymm next (early.trans (monthText.mp text).ge)
    have current : resetLoyaltyMonthIfNeeded s.row (getCurrentLoyaltyMonth z request.now) = (s.row,false) := by
      rw [resetLoyaltyMonthIfNeeded,if_pos]
      rw [storedMonth month reached,latest,Option.map_some,equal]
    have work := committedWork ((RowLock.isolated reached).holding request w held) ended
    rw [current] at work
    exact row.trans work

theorem MonotoneRun.init {actions : List LoyaltyAction} (h : MonotoneRun z customer (actions ++ [a])) : MonotoneRun z customer actions := by
  rintro before part rest s t rfl first later
  exact h before part (rest ++ [a]) s t (by simp) first later

/-- The months of a customer's progress go up in every run in which the requests that commit do so in the order of their
months, none before the month the customer was created in, and in no other run. -/
theorem loyaltyMonthMonotone (z : Zone) (customer : LoyaltyCustomer) (created : Option Int)
    (month : customer.loyaltyProgressMonth = created.map (getCurrentLoyaltyMonth z)) (actions : List LoyaltyAction) (t : LoyaltyState)
    (ran : Transition.run (LoyaltyState.step z) (.initial customer) actions = some t) :
    MonotoneRun z customer actions ↔
      (created.toList ++ t.committed.map (·.1.now)).Pairwise fun a b => monthNumber z a ≤ monthNumber z b := by
  constructor
  · intro kept
    induction actions using List.reverseRecOn generalizing t with
    | nil =>
      cases Option.some.inj ran
      cases created <;> simp [LoyaltyState.initial,RowLock.State.initial]
    | append_singleton actions a ih =>
      rw [Transition.runAppend] at ran
      obtain ⟨s,before,last⟩ := Option.bind_eq_some_iff.mp ran
      have sorted := ih s before kept.init
      have step := kept actions [a] [] s t (by simp) before last
      obtain ⟨u,taken,same⟩ := Option.bind_eq_some_iff.mp last
      cases Option.some.inj same
      rcases stepCommits taken with ⟨_,same,_⟩ | ⟨request,w,_,_,_,_,grown⟩
      · rw [same]
        exact sorted
      · rw [grown,List.map_append,← List.append_assoc,List.pairwise_append]
        refine ⟨sorted,List.pairwise_singleton _ _,fun x mem y new => ?_⟩
        cases List.mem_singleton.mp new
        obtain ⟨latest,is⟩ : ∃ latest, (s.times created).getLast? = some latest :=
          ⟨_,List.getLast?_eq_some_getLast (List.ne_nil_of_mem mem)⟩
        have reached := runReached before
        obtain ⟨b,stored,later⟩ := step.month latest (by rw [storedMonth month reached,is]; rfl)
        have now : t.row.loyaltyProgressMonth = some (getCurrentLoyaltyMonth z request.now) := by
          rw [storedMonth month (reached.step taken),LoyaltyState.times,grown,List.map_append,← List.append_assoc,List.map_cons,List.map_nil,
            List.getLast?_append]
          rfl
        have equal := monthText.mp (Option.some.inj (stored.symm.trans now))
        exact (lastGreatest sorted is x mem).trans (equal ▸ later)
  · rintro ordered before part rest s u rfl first later
    rw [List.append_assoc,Transition.runAppend,first,Option.bind_some,Transition.runAppend,later,Option.bind_some] at ran
    refine orderedKept month (runReached first) later ?_
    exact List.Pairwise.sublist (timesGrow (runCommits ran)).sublist ordered

end Runs

/-- Two deliveries around the end of September that are recorded in the order of their times. -/
def octoberRun : List LoyaltyAction :=
  [.begin 0 ⟨.delivered,1790827199000⟩,.begin 1 ⟨.delivered,1790827201000⟩,.acquire 0,.advance,.advance,.commit,.acquire 1,.advance,.advance,.commit]

theorem octoberRunMonotone : MonotoneRun (Zone.fixed (-240)) (newLoyaltyCustomer (some "2026-09")) octoberRun := by
  have ends : (Transition.run (LoyaltyState.step (Zone.fixed (-240))) (.initial (newLoyaltyCustomer (some "2026-09"))) octoberRun).map
      (fun t => t.committed.map (·.1.now)) = some [1790827199000,1790827201000] := by decide +kernel
  obtain ⟨t,ran,times⟩ := Option.map_eq_some_iff.mp ends
  refine (loyaltyMonthMonotone (Zone.fixed (-240)) _ (some 1790000000000) (by decide +kernel) octoberRun t ran).mpr ?_
  rw [times]
  decide +kernel

/-- The first of three deliveries gets the lock after the other two, in October. -/
def lateRun : List LoyaltyAction :=
  [.begin 0 ⟨.delivered,1790827199000⟩,.begin 1 ⟨.delivered,1790827201000⟩,.acquire 1,.advance,.advance,.commit,
    .begin 2 ⟨.delivered,1790827202000⟩,.acquire 2,.advance,.advance,.commit,.acquire 0,.advance,.advance]

theorem lateRunResets : ∃ s t, Transition.run (LoyaltyState.step (Zone.fixed (-240))) (.initial (newLoyaltyCustomer (some "2026-09"))) lateRun = some s ∧
    s.step (Zone.fixed (-240)) .commit = some t ∧
    s.row.loyaltyProgressMonth = some "2026-10" ∧ s.row.loyaltyCompletedOrders = 2 ∧
    t.row.loyaltyProgressMonth = some "2026-09" ∧ t.row.loyaltyCompletedOrders = 1 ∧
    ¬MonotoneRun (Zone.fixed (-240)) (newLoyaltyCustomer (some "2026-09")) (lateRun ++ [.commit]) := by
  have ends : (Transition.run (LoyaltyState.step (Zone.fixed (-240))) (.initial (newLoyaltyCustomer (some "2026-09"))) lateRun).bind (fun s =>
      (s.step (Zone.fixed (-240)) .commit).map fun t => (s.row.loyaltyProgressMonth,s.row.loyaltyCompletedOrders,
        t.row.loyaltyProgressMonth,t.row.loyaltyCompletedOrders)) = some (some "2026-10",2,some "2026-09",1) := by decide +kernel
  obtain ⟨s,ran,ends⟩ := Option.bind_eq_some_iff.mp ends
  obtain ⟨t,taken,facts⟩ := Option.map_eq_some_iff.mp ends
  simp only [Prod.mk.injEq] at facts
  obtain ⟨october,two,september,one⟩ := facts
  refine ⟨s,t,ran,taken,october,two,september,one,fun kept => ?_⟩
  have last : Transition.run (LoyaltyState.step (Zone.fixed (-240))) s [.commit] = some t := by
    rw [Transition.run,taken]
    rfl
  obtain ⟨b,stored,later⟩ := (kept lateRun [.commit] [] s t (by simp) ran last).month 1790827201000 (by rw [october]; decide +kernel)
  have text : getCurrentLoyaltyMonth (Zone.fixed (-240)) 1790827199000 = getCurrentLoyaltyMonth (Zone.fixed (-240)) b := by
    rw [← Option.some.inj (september.symm.trans stored)]
    decide +kernel
  rw [← monthText.mp text] at later
  revert later
  decide +kernel

end SpeedySweeties
