import SpeedySweeties.Business.OpeningHours
import SpeedySweeties.Library.Recurrence

/-! The schedule as it is meant, without a week to look at: dated openings happen once and weekly ones
in every week, forwards and backwards without end. The evaluation knows three shifts of a weekly
opening, and that is enough to say whether the shop is open and when it opens next. -/
namespace SpeedySweeties.Business
open Recurrence Ranking

/-- The minute at which a Sunday begins that all others are counted from. -/
def firstSunday : Int := 3*day

inductive Opening where
  | dated (opens closes : Option Int)
  | weekly (span : Span)
  | aroundTheClock
  deriving DecidableEq, Repr

namespace Opening

/-- A week from Sunday on, for the shop that never closes. -/
def wholeWeek : Span := ⟨0,week⟩

def Contains (minute : Int) : Opening → Prop
  | dated opens closes => ∃ from_ until_, opens = some from_ ∧ closes = some until_ ∧ from_ ≤ minute ∧ minute < until_
  | weekly span => span.Recurs week firstSunday minute
  | aroundTheClock => wholeWeek.Recurs week firstSunday minute

def starts : Opening → Set Int
  | dated opens _ => {start | opens = some start}
  | weekly span => span.starts week firstSunday
  | aroundTheClock => wholeWeek.starts week firstSunday

end Opening

/-- Of an opening day and of a closing day; a close that is not later is a week later. -/
def weeklySpan (open_ close : OpeningPoint) (openDay closeDay : Int) : Span :=
  let start := openDay*day + open_.clock
  let end_ := closeDay*day + close.clock
  ⟨start,if end_ ≤ start then end_ + week else end_⟩

section Meaning
variable (useCurrent : Bool) (cutoff : Int)

/-- The weekday rule applies: to every regular period, and to a current one whose opening has no date. -/
def Undated (open_ : OpeningPoint) : Prop := useCurrent = true → dateMinute open_ = none

inductive Opens : OpeningPeriod → Opening → Prop
  | dated {open_ close : OpeningPoint} {opens closes : Option Int} : useCurrent = true → clockValid open_ → clockValid close →
      dateMinute open_ = some opens → dateMinute close = some closes → atMost closes opens = false →
      Opens ⟨some open_,some close⟩ (.dated opens closes)
  | datedOn {open_ : OpeningPoint} {opens : Option Int} : useCurrent = true → clockValid open_ → dateMinute open_ = some opens →
      atMost (some cutoff) opens = false → Opens ⟨some open_,none⟩ (.dated opens (some cutoff))
  | weekly {open_ close : OpeningPoint} {openDay closeDay : Int} : Undated useCurrent open_ → clockValid open_ → clockValid close →
      open_.weekday = some openDay → close.weekday = some closeDay →
      Opens ⟨some open_,some close⟩ (.weekly (weeklySpan open_ close openDay closeDay))
  | aroundTheClock {open_ : OpeningPoint} : Undated useCurrent open_ → clockValid open_ → open_.weekday = some 0 → open_.clock = 0 →
      Opens ⟨some open_,none⟩ .aroundTheClock

/-- What the evaluation takes as no schedule at all. -/
inductive Flawed : OpeningPeriod → Prop
  | missingOpening {close : Option OpeningPoint} : Flawed ⟨none,close⟩
  | openClock {open_ : OpeningPoint} {close : Option OpeningPoint} : clockValid open_ = false → Flawed ⟨some open_,close⟩
  | closeClock {open_ close : OpeningPoint} : clockValid close = false → Flawed ⟨some open_,some close⟩
  | closeUndated {open_ close : OpeningPoint} : ¬Undated useCurrent open_ → dateMinute close = none → Flawed ⟨some open_,some close⟩
  | closeNotLater {open_ close : OpeningPoint} {opens closes : Option Int} : useCurrent = true → dateMinute open_ = some opens →
      dateMinute close = some closes → atMost closes opens → Flawed ⟨some open_,some close⟩
  | openNotEarlier {open_ : OpeningPoint} {opens : Option Int} : useCurrent = true → dateMinute open_ = some opens →
      atMost (some cutoff) opens → Flawed ⟨some open_,none⟩
  | openWeekday {open_ : OpeningPoint} {close : Option OpeningPoint} : Undated useCurrent open_ → open_.weekday = none →
      Flawed ⟨some open_,close⟩
  | closeWeekday {open_ close : OpeningPoint} : Undated useCurrent open_ → close.weekday = none → Flawed ⟨some open_,some close⟩
  | missingClose {open_ : OpeningPoint} : Undated useCurrent open_ → ¬(open_.weekday = some 0 ∧ open_.clock = 0) →
      Flawed ⟨some open_,none⟩

end Meaning

/-- The intervals that stand for an opening in the week around `today`. -/
def Opening.intervals (today cutoff : Int) : Opening → List Interval
  | dated opens closes => [(opens,closes.map (min · cutoff))]
  | weekly span => [-week,0,week].map fun offset =>
      (some (sundayOf today + span.opens + offset),some (sundayOf today + span.closes + offset))
  | aroundTheClock => [(some (today - week),some (today + week))]

variable {useCurrent : Bool} {today firstDate current fetched : Int} {period : OpeningPeriod} {periods : List OpeningPeriod}
  {o : Opening} {saved : SavedBusinessHours} {intervals : List Interval}

theorem opensIntervals (h : Opens useCurrent (firstDate + week) period o) :
    periodIntervals useCurrent today firstDate period = some (o.intervals today (firstDate + week)) := by
  cases h with
  | dated current openClock closeClock opens closes later =>
    simp [periodIntervals,current,openClock,closeClock,opens,closes,later,Opening.intervals]
  | datedOn current openClock opens later =>
    simp [periodIntervals,current,openClock,opens,later,Opening.intervals]
  | @weekly open_ close openDay closeDay undated openClock closeClock opens closes =>
    cases useCurrent with
    | false => simp [periodIntervals,openClock,closeClock,opens,closes,Opening.intervals,weeklySpan]
    | true => simp [periodIntervals,openClock,closeClock,opens,closes,undated rfl,Opening.intervals,weeklySpan]
  | aroundTheClock undated openClock sunday midnight =>
    cases useCurrent with
    | false => simp [periodIntervals,openClock,sunday,midnight,Opening.intervals]
    | true => simp [periodIntervals,openClock,sunday,midnight,undated rfl,Opening.intervals]

theorem flawedNone (h : Flawed useCurrent (firstDate + week) period) : periodIntervals useCurrent today firstDate period = none := by
  cases h with
  | missingOpening => rfl
  | openClock bad => simp [periodIntervals,bad]
  | closeClock bad => simp [periodIntervals,bad]
  | @closeUndated open_ close dated undated =>
    obtain ⟨rfl,has⟩ : useCurrent = true ∧ dateMinute open_ ≠ none := by simpa [Undated] using dated
    obtain ⟨opens,is⟩ := Option.ne_none_iff_exists'.mp has
    simp [periodIntervals,is,undated]
  | closeNotLater current opens closes early => simp [periodIntervals,current,opens,closes,early]
  | openNotEarlier current opens late => simp [periodIntervals,current,opens,late]
  | openWeekday undated bad =>
    cases useCurrent with
    | false => simp [periodIntervals,bad]
    | true => simp [periodIntervals,bad,undated rfl]
  | closeWeekday undated bad =>
    cases useCurrent with
    | false => simp [periodIntervals,bad]
    | true => simp [periodIntervals,bad,undated rfl]
  | @missingClose open_ undated other =>
    have given_up : ∀ openDay, open_.weekday = some openDay → openDay = 0 → open_.clock = 0 → False :=
      fun openDay is sunday midnight => other ⟨by rw [is,sunday],midnight⟩
    cases useCurrent with
    | false => simpa [periodIntervals,imp_iff_not_or] using Or.inr given_up
    | true => simpa [periodIntervals,undated rfl,imp_iff_not_or] using Or.inr given_up

theorem flawedOrOpens (useCurrent : Bool) (cutoff : Int) (period : OpeningPeriod) :
    Flawed useCurrent cutoff period ∨ ∃ o, Opens useCurrent cutoff period o := by
  obtain ⟨open_,close⟩ := period
  cases open_ with
  | none => exact .inl .missingOpening
  | some open_ =>
  by_cases openClock : clockValid open_ = true
  swap
  · exact .inl (.openClock (by simpa using openClock))
  by_cases undated : Undated useCurrent open_
  · cases close with
    | none =>
      by_cases allWeek : open_.weekday = some 0 ∧ open_.clock = 0
      · exact .inr ⟨_,.aroundTheClock undated openClock allWeek.1 allWeek.2⟩
      · exact .inl (.missingClose undated allWeek)
    | some close =>
      by_cases closeClock : clockValid close = true
      swap
      · exact .inl (.closeClock (by simpa using closeClock))
      cases opens : open_.weekday with
      | none => exact .inl (.openWeekday undated opens)
      | some openDay =>
        cases closes : close.weekday with
        | none => exact .inl (.closeWeekday undated closes)
        | some closeDay => exact .inr ⟨_,.weekly undated openClock closeClock opens closes⟩
  · obtain ⟨current,has⟩ : useCurrent = true ∧ dateMinute open_ ≠ none := by simpa [Undated] using undated
    obtain ⟨opens,is⟩ := Option.ne_none_iff_exists'.mp has
    cases close with
    | none =>
      by_cases late : atMost (some cutoff) opens = true
      · exact .inl (.openNotEarlier current is late)
      · exact .inr ⟨_,.datedOn current openClock is (by simpa using late)⟩
    | some close =>
      by_cases closeClock : clockValid close = true
      swap
      · exact .inl (.closeClock (by simpa using closeClock))
      cases closes : dateMinute close with
      | none => exact .inl (.closeUndated undated closes)
      | some closing =>
        by_cases early : atMost closing opens = true
        · exact .inl (.closeNotLater current is closes early)
        · exact .inr ⟨_,.dated current openClock closeClock is closes (by simpa using early)⟩

theorem intervalsNone : intervalsOf useCurrent today firstDate periods = none ↔
    ∃ period ∈ periods, Flawed useCurrent (firstDate + week) period := by
  induction periods with
  | nil => simp [intervalsOf]
  | cons period periods ih =>
    rcases flawedOrOpens useCurrent (firstDate + week) period with flawed | ⟨o,opens⟩
    · simp [intervalsOf,@flawedNone _ today _ _ flawed,flawed]
    · have sound : ¬Flawed useCurrent (firstDate + week) period := fun flawed => by
        have := @opensIntervals _ today _ _ _ opens
        simp [flawedNone flawed] at this
      rw [List.exists_mem_cons_iff,← ih,or_iff_right sound,intervalsOf,opensIntervals opens]
      cases intervalsOf useCurrent today firstDate periods <;> simp

theorem intervalsMem (is : intervalsOf useCurrent today firstDate periods = some intervals) (i : Interval) :
    i ∈ intervals ↔ ∃ period ∈ periods, ∃ o, Opens useCurrent (firstDate + week) period o ∧ i ∈ o.intervals today (firstDate + week) := by
  induction periods generalizing intervals with
  | nil => cases is; simp
  | cons period periods ih =>
    simp only [intervalsOf,bind,Option.bind_eq_some_iff] at is
    obtain ⟨first,here,rest,later,joined⟩ := is
    cases joined
    have same (o : Opening) (opens : Opens useCurrent (firstDate + week) period o) : o.intervals today (firstDate + week) = first :=
      Option.some.inj ((opensIntervals opens).symm.trans here)
    rw [List.mem_append,List.exists_mem_cons_iff,ih later]
    refine or_congr_left ⟨fun mem => ?_,fun ⟨o,opens,mem⟩ => same o opens ▸ mem⟩
    rcases flawedOrOpens useCurrent (firstDate + week) period with flawed | ⟨o,opens⟩
    · simp [flawedNone flawed] at here
    · exact ⟨o,opens,(same o opens).symm ▸ mem⟩

theorem nextStartLeast {next : Int} : nextStart current intervals = some next ↔
    IsLeast {start | current < start ∧ ∃ i ∈ intervals, i.1 = some start} next := by
  have mem (start : Int) : start ∈ intervals.filterMap (fun i => i.1.filter (current < ·)) ↔
      current < start ∧ ∃ i ∈ intervals, i.1 = some start := by
    simp only [List.mem_filterMap,Option.filter_eq_some_iff,decide_eq_true_eq]
    exact ⟨fun ⟨i,here,is,later⟩ => ⟨later,i,here,is⟩,fun ⟨later,i,here,is⟩ => ⟨i,here,is,later⟩⟩
  have leastOf {first : Int} {rest : List Int} (is : ranked compare (intervals.filterMap fun i => i.1.filter (current < ·)) = first::rest) :
      IsLeast {start | current < start ∧ ∃ i ∈ intervals, i.1 = some start} first := by
    obtain ⟨here,least,-,-⟩ := rankedTop is
    exact ⟨(mem first).mp here,fun other is => Std.isLE_compare.mp (least other ((mem other).mpr is))⟩
  unfold nextStart
  constructor
  · intro is
    obtain ⟨rest,is⟩ := List.head?_eq_some_iff.mp is
    exact leastOf is
  · intro least
    cases is : ranked compare (intervals.filterMap fun i => i.1.filter (current < ·)) with
    | nil =>
      have := (@memRanked _ compare _ next).mpr ((mem next).mpr least.1)
      rw [is] at this
      cases this
    | cons first rest => rw [List.head?_cons,(leastOf is).unique least]

theorem inRangeSome {value : Option ℚ} {bound : Int} (h : inRange value bound = true) :
    ∃ n, integer value = some n ∧ 0 ≤ n ∧ n < bound := by
  simpa [inRange,Option.any_eq_true] using h

theorem integerNum {q : ℚ} {n : Int} (h : integer (some q) = some n) : q.num = n := by
  simp only [integer,Option.bind_some] at h
  split at h
  · exact Option.some.inj h
  · cases h

theorem clockBounds {p : OpeningPoint} (h : clockValid p = true) : 0 ≤ p.clock ∧ p.clock < day := by
  obtain ⟨hour,minute⟩ := Bool.and_eq_true_iff.mp h
  obtain ⟨h,hour,_,_⟩ := inRangeSome hour
  obtain ⟨m,minute,_,_⟩ := inRangeSome minute
  rw [OpeningPoint.clock,integerNum hour,integerNum minute]
  unfold day
  omega

theorem weekdayBounds {p : OpeningPoint} {d : Int} (h : p.weekday = some d) : 0 ≤ d ∧ d < 7 := by
  unfold OpeningPoint.weekday at h
  split at h
  · rename_i valid
    obtain ⟨n,is,_,_⟩ := inRangeSome valid
    have : d = n := Option.some.inj (h.symm.trans is)
    omega
  · cases h

theorem weeklyWithin {open_ close : OpeningPoint} {openDay closeDay : Int} (openClock : clockValid open_ = true)
    (closeClock : clockValid close = true) (opens : open_.weekday = some openDay) (closes : close.weekday = some closeDay) :
    (weeklySpan open_ close openDay closeDay).Within week := by
  have := clockBounds openClock
  have := clockBounds closeClock
  have := weekdayBounds opens
  have := weekdayBounds closes
  unfold weeklySpan
  unfold week day at *
  constructor <;> simp only <;> (try split) <;> omega

theorem wholeWithin : Opening.wholeWeek.Within week := ⟨by decide,by decide,by decide,by decide⟩

/-- The Sunday before a minute, at the latest on its own day. -/
theorem sundayBefore (current : Int) : (∃ since : Int, sundayOf (current/day*day) = firstSunday + since*week) ∧
    sundayOf (current/day*day) ≤ current ∧ current < sundayOf (current/day*day) + week := by
  simp only [sundayOf,Calendar.weekday,firstSunday,week,day]
  exact ⟨⟨(current/1440 + 4)/7 - 1,by omega⟩,by omega,by omega⟩

theorem wholeRecurs (current : Int) : Opening.wholeWeek.Recurs week firstSunday current := by
  obtain ⟨⟨since,is⟩,low,high⟩ := sundayBefore current
  refine ⟨since,?_,?_⟩ <;> simp only [Span.shift,Opening.wholeWeek] <;> omega

section Opened
variable {cutoff : Int} (opens : Opens useCurrent cutoff period o)
include opens

theorem containsIntervals (inForce : useCurrent = true → current < cutoff) :
    (∃ i ∈ o.intervals (current/day*day) cutoff, i.contains current) ↔ o.Contains current := by
  obtain ⟨aligned,low,high⟩ := sundayBefore current
  cases opens with
  | @dated open_ close opens closes now openClock closeClock hasOpens hasCloses later =>
    have before := inForce now
    cases opens <;> cases closes <;> simp [Opening.intervals,Opening.Contains,Interval.contains,before]
  | @datedOn open_ opens now openClock hasOpens later =>
    have before := inForce now
    cases opens <;> simp [Opening.intervals,Opening.Contains,Interval.contains,before]
  | @weekly open_ close openDay closeDay undated openClock closeClock hasOpens hasCloses =>
    rw [Opening.Contains,Span.recursAround (weeklyWithin openClock closeClock hasOpens hasCloses) low high aligned]
    have same (offset : Int) : Interval.contains (some (sundayOf (current/day*day) + (weeklySpan open_ close openDay closeDay).opens + offset),
        some (sundayOf (current/day*day) + (weeklySpan open_ close openDay closeDay).closes + offset)) current ↔
        ((weeklySpan open_ close openDay closeDay).shift (sundayOf (current/day*day) + offset)).Holds current := by
      simp only [Interval.contains,Option.any_some,Bool.and_eq_true,decide_eq_true_eq,Span.Holds,Span.shift]
      omega
    simp only [Opening.intervals,List.mem_map,exists_exists_and_eq_and,same]
  | aroundTheClock =>
    refine iff_of_true ⟨_,List.mem_singleton_self _,?_⟩ (wholeRecurs current)
    simp only [Interval.contains,Option.any_some,Bool.and_eq_true,decide_eq_true_eq,week,day]
    omega

theorem startsInterval {i : Interval} {start : Int} (mem : i ∈ o.intervals (current/day*day) cutoff) (is : i.1 = some start)
    (later : current < start) : start ∈ o.starts := by
  obtain ⟨aligned,_,_⟩ := sundayBefore current
  cases opens with
  | dated | datedOn => rw [List.mem_singleton.mp mem] at is; exact is
  | @weekly open_ close openDay closeDay =>
    obtain ⟨offset,around,rfl⟩ := List.mem_map.mp mem
    have := Span.startOfShift (s := weeklySpan open_ close openDay closeDay) aligned around
    have same : sundayOf (current/day*day) + (weeklySpan open_ close openDay closeDay).opens + offset = start := Option.some.inj is
    rw [Opening.starts,← same]
    rwa [← add_assoc,add_comm _ (sundayOf _)] at this
  | aroundTheClock =>
    rw [List.mem_singleton.mp mem] at is
    have := Option.some.inj is
    unfold week day at this
    omega

theorem intervalOfStart {start : Int} (mem : start ∈ o.starts) (later : current < start) (closed : ¬o.Contains current) :
    ∃ i ∈ o.intervals (current/day*day) cutoff, ∃ first, i.1 = some first ∧ current < first ∧ first ≤ start := by
  obtain ⟨aligned,low,high⟩ := sundayBefore current
  cases opens with
  | dated | datedOn => exact ⟨_,List.mem_singleton_self _,start,mem,later,le_rfl⟩
  | weekly undated openClock closeClock hasOpens hasCloses =>
    obtain ⟨offset,around,after,before⟩ :=
      Span.startAround (weeklyWithin openClock closeClock hasOpens hasCloses) low high aligned mem later
    exact ⟨_,List.mem_map_of_mem around,_,rfl,by omega,by omega⟩
  | aroundTheClock => exact absurd (wholeRecurs current) closed

end Opened

/-- The endless schedule covers the minute. -/
def ScheduledOpen (useCurrent : Bool) (cutoff : Int) (periods : List OpeningPeriod) (minute : Int) : Prop :=
  ∃ period ∈ periods, ∃ o, Opens useCurrent cutoff period o ∧ o.Contains minute

/-- The minutes after `minute` at which an opening of the endless schedule begins. -/
def laterStarts (useCurrent : Bool) (cutoff : Int) (periods : List OpeningPeriod) (minute : Int) : Set Int :=
  {start | minute < start ∧ ∃ period ∈ periods, ∃ o, Opens useCurrent cutoff period o ∧ start ∈ o.starts}

section Evaluated
variable (is : intervalsOf useCurrent (current/day*day) firstDate periods = some intervals)
include is

theorem openIntervals (inForce : useCurrent = true → current < firstDate + week) :
    intervals.any (·.contains current) ↔ ScheduledOpen useCurrent (firstDate + week) periods current := by
  simp only [List.any_eq_true,intervalsMem is]
  constructor
  · intro ⟨i,⟨period,mem,o,opens,here⟩,holds⟩
    exact ⟨period,mem,o,opens,(containsIntervals opens inForce).mp ⟨i,here,holds⟩⟩
  · intro ⟨period,mem,o,opens,holds⟩
    obtain ⟨i,here,holds⟩ := (containsIntervals opens inForce).mpr holds
    exact ⟨i,⟨period,mem,o,opens,here⟩,holds⟩

theorem nextIntervals (closed : ¬ScheduledOpen useCurrent (firstDate + week) periods current) {next : Int} :
    nextStart current intervals = some next ↔ IsLeast (laterStarts useCurrent (firstDate + week) periods current) next := by
  rw [nextStartLeast]
  symm
  apply leastAmong
  · intro start ⟨later,i,mem,begins⟩
    obtain ⟨period,mem,o,opens,here⟩ := (intervalsMem is i).mp mem
    exact ⟨later,period,mem,o,opens,startsInterval opens here begins later⟩
  · intro start ⟨later,period,mem,o,opens,here⟩
    obtain ⟨i,inside,first,begins,after,before⟩ := intervalOfStart opens here later fun holds => closed ⟨period,mem,o,opens,holds⟩
    exact ⟨first,⟨after,i,(intervalsMem is i).mpr ⟨period,mem,o,opens,inside⟩,begins⟩,before⟩

end Evaluated

/-- The periods that count, and whether they are the current ones. -/
def InForce (saved : SavedBusinessHours) (current fetched : Int) (useCurrent : Bool) (periods : List OpeningPeriod) : Prop :=
  let recent := current/day < fetched/day + 7 ∧ ∃ hours saved', saved.currentOpeningHours = some hours ∧ hours.periods = some saved'
  (recent ∧ useCurrent = true ∧ ∃ hours, saved.currentOpeningHours = some hours ∧ hours.periods = some periods) ∨
    (¬recent ∧ useCurrent = false ∧ ∃ hours, saved.regularOpeningHours = some hours ∧ hours.periods = some periods)

theorem inForce : InForce saved current fetched useCurrent periods ↔
    usesCurrent saved current fetched = useCurrent ∧ periodsInForce saved current fetched = some periods := by
  have recent : usesCurrent saved current fetched = true ↔
      current/day < fetched/day + 7 ∧ ∃ hours saved', saved.currentOpeningHours = some hours ∧ hours.periods = some saved' := by
    have dates : current/day*day < fetched/day*day + week ↔ current/day < fetched/day + 7 := by
      unfold week day
      omega
    simp only [usesCurrent,Bool.and_eq_true,decide_eq_true_eq,dates,Option.isSome_iff_exists,Option.bind_eq_some_iff]
    exact and_congr_right fun _ => exists_comm
  unfold InForce periodsInForce
  rw [← recent]
  cases usesCurrent saved current fetched <;> cases useCurrent <;> simp [Option.bind_eq_some_iff]

/-- The end of the last date that the current hours speak of. -/
def lastMoment (fetched : Int) : Int := fetched/day*day + week

/-- What an evaluation says of the endless schedule in force. -/
structure Exact (saved : SavedBusinessHours) (current fetched : Int) (result : Option BusinessHours) : Prop where
  rejects : result = none ↔ current < fetched ∨ (∀ useCurrent periods, ¬InForce saved current fetched useCurrent periods) ∨
    ∃ useCurrent periods, InForce saved current fetched useCurrent periods ∧
      ∃ period ∈ periods, Flawed useCurrent (lastMoment fetched) period
  evaluates (status : BusinessHours) : result = some status → ∃ useCurrent periods, InForce saved current fetched useCurrent periods ∧
    (status.isOpen = true ↔ ScheduledOpen useCurrent (lastMoment fetched) periods current) ∧
    ∀ text, status.nextOpenText = some text ↔ ¬ScheduledOpen useCurrent (lastMoment fetched) periods current ∧
      ∃ next, IsLeast (laterStarts useCurrent (lastMoment fetched) periods current) next ∧
        (useCurrent = true → next < lastMoment fetched) ∧ text = openingText current next

theorem evaluateExact (saved : SavedBusinessHours) (current fetched : Int) : Exact saved current fetched (evaluateAt saved current fetched) := by
  by_cases early : current < fetched
  · have none_ : evaluateAt saved current fetched = none := by simp [evaluateAt,early]
    exact ⟨iff_of_true none_ (.inl early),fun status is => by simp [none_] at is⟩
  cases used : periodsInForce saved current fetched with
  | none =>
    have none_ : evaluateAt saved current fetched = none := by simp [evaluateAt,used]
    refine ⟨iff_of_true none_ (.inr (.inl fun useCurrent periods is => ?_)),fun status is => by simp [none_] at is⟩
    cases used.symm.trans (inForce.mp is).2
  | some periods =>
  have here {u : Bool} {ps : List OpeningPeriod} :
      InForce saved current fetched u ps ↔ usesCurrent saved current fetched = u ∧ periods = ps := by rw [inForce,used,Option.some_inj]
  have before : usesCurrent saved current fetched = true → current < fetched/day*day + week := fun now => by
    have : current/day*day < fetched/day*day + week := of_decide_eq_true (Bool.and_eq_true_iff.mp now).1
    unfold week day at *
    omega
  cases found : intervalsOf (usesCurrent saved current fetched) (current/day*day) (fetched/day*day) periods with
  | none =>
    have none_ : evaluateAt saved current fetched = none := by simp [evaluateAt,used,found]
    exact ⟨iff_of_true none_ (.inr (.inr ⟨_,_,here.mpr ⟨rfl,rfl⟩,intervalsNone.mp found⟩)),fun status is => by simp [none_] at is⟩
  | some intervals =>
    have open_ := openIntervals found before
    have evaluated : evaluateAt saved current fetched = some ⟨intervals.any (·.contains current),
        if intervals.any (·.contains current) then none else
          ((nextStart current intervals).filter fun next => !usesCurrent saved current fetched || next < fetched/day*day + week).map
            (openingText current),
        dailyHoursSlot fetched != dailyHoursSlot current⟩ := by
      simp [evaluateAt,early,used,found]
    rw [evaluated]
    refine ⟨iff_of_false nofun ?_,fun status is => ⟨_,_,here.mpr ⟨rfl,rfl⟩,?_⟩⟩
    · rintro (early' | missing | ⟨_,_,inForce,flawed⟩)
      · exact early early'
      · exact missing _ _ (here.mpr ⟨rfl,rfl⟩)
      · obtain ⟨rfl,rfl⟩ := here.mp inForce
        simp [intervalsNone.mpr flawed] at found
    cases is
    refine ⟨open_,fun text => ?_⟩
    by_cases scheduled : ScheduledOpen (usesCurrent saved current fetched) (fetched/day*day + week) periods current
    · rw [if_pos (open_.mpr scheduled)]
      exact iff_of_false nofun fun closed => closed.1 scheduled
    rw [if_neg (mt open_.mp scheduled)]
    simp only [Option.map_eq_some_iff,Option.filter_eq_some_iff,nextIntervals found scheduled]
    constructor
    · rintro ⟨next,⟨least,within⟩,rfl⟩
      exact ⟨scheduled,next,least,fun now => by simpa [now,lastMoment] using within,rfl⟩
    · rintro ⟨_,next,least,within,rfl⟩
      refine ⟨next,⟨least,?_⟩,rfl⟩
      cases now : usesCurrent saved current fetched
      · rfl
      · simpa [lastMoment] using within now

section Clock
variable (parseDate : String → Option Int) (torontoMinute : Int → Int)

theorem businessHoursExact {now fetchedAt : Int} (parsed : parseDate saved.fetchedAt = some fetchedAt) :
    ∃ result, evaluateBusinessHours parseDate torontoMinute saved now = .ok result ∧
      Exact saved (torontoMinute now) (torontoMinute fetchedAt) result :=
  ⟨_,by rw [evaluateBusinessHours,parsed],evaluateExact saved _ _⟩

end Clock

/-- From Saturday, 22:00, to Sunday, 02:00, as of a Thursday's midnight. -/
def saturdayNight : SavedBusinessHours :=
  ⟨"1970-01-01T00:00:00Z",some ⟨some [⟨some { day := some 6, hour := some 22 },some { day := some 0, hour := some 2 }⟩]⟩,none⟩

theorem businessHoursExactSunday : evaluateBusinessHours (fun _ => some 0) (· / 60000) saturdayNight (4380*60000) =
      .ok (some ⟨true,none,true⟩) ∧
    ∃ result, evaluateBusinessHours (fun _ => some 0) (· / 60000) saturdayNight (4380*60000) = .ok result ∧
      Exact saturdayNight (4380*60000/60000) (0/60000) result :=
  ⟨by decide +kernel,businessHoursExact _ _ rfl⟩

/-- Noon of January 2nd, without a close and without a weekday. -/
def openFromNoon : OpeningPeriod := ⟨some { hour := some 12, date := some ⟨some 1970,some 1,some 2⟩ },none⟩

/-- A missing close, not of the form for the whole week, is a schedule all the same: the shop stays open for six days. -/
theorem openEndNotRejected :
    ¬∀ (saved : SavedBusinessHours) (open_ : OpeningPoint) (hours : OpeningHours) (current fetched : Int), fetched ≤ current →
      saved.currentOpeningHours = some hours → hours.periods = some [⟨some open_,none⟩] → current/day < fetched/day + 7 →
      ¬(open_.weekday = some 0 ∧ open_.clock = 0) → evaluateAt saved current fetched = none := by
  intro law
  have := law ⟨"1970-01-01T00:00:00Z",none,some ⟨some [openFromNoon]⟩⟩ _ _ 9000 0 (by decide) rfl rfl (by decide +kernel) (by decide +kernel)
  exact absurd this (by decide +kernel)

end SpeedySweeties.Business
