import Mathlib.Data.Int.ConditionallyCompleteOrder
import Mathlib.Order.ConditionallyCompleteLattice.Basic
import Mathlib.Order.Monotone.Basic
import SpeedySweeties.Library.DateText
import SpeedySweeties.Library.DayRanges
import SpeedySweeties.Library.Fallible
import SpeedySweeties.Reports.Metrics

/-! The date ranges of the growth dashboard. A range runs from the Toronto midnight of its first date
up to that of the date after its last one, which is searched from the clock's distance to UTC. What
the Toronto clock shows at an instant, as milliseconds, is up to the formatter of the runtime. -/
namespace SpeedySweeties.Reports
open Calendar DayRanges JsText

/-- `Date.UTC`: a year of one or two digits is one of the last century. -/
def fullYear (year : Int) : Int := if 0 ≤ year ∧ year ≤ 99 then 1900 + year else year

def dateUtc (c : Civil) : Int := utc (fullYear c.year) c.month c.day 0 0

def maxRangeDays : Int := 366

def datePartsFromKey (dateKey : String) : Except String Civil :=
  match dateOnly dateKey with
  | none => .error "Dates must use YYYY-MM-DD format."
  | some c => if civil (dateUtc c) = c then .ok c else .error "The selected date is invalid."

def formatDateParts (date : Int) : String := plainDate (civil date)

def addCalendarDays (dateKey : String) (days : Int) : Except String String := do
  let c ← datePartsFromKey dateKey
  .ok (formatDateParts (dateUtc { c with day := c.day + days }))

structure GrowthDashboardDateRange where
  startDate : String
  endDate : String
  startUtc : Int
  endExclusiveUtc : Int
  days : Nat
  deriving DecidableEq, Repr

section Clock
variable (torontoClock : Int → Int)

def formatTorontoDateKey (date : Int) : String := formatDateParts (torontoClock date)

/-- What the clock shows, to the second, taken as UTC, less the instant itself. -/
def getTorontoUtcOffsetMilliseconds (instant : Int) : Int :=
  let local_ := torontoClock instant
  dateUtc (civil local_) + local_ % Calendar.dayMs/1000*1000 - instant

/-- The search makes three attempts. -/
def torontoDateStartUtc (dateKey : String) : Except String Int := do
  let localMidnightAsUtc := dateUtc (← datePartsFromKey dateKey)
  let attempt (utcMilliseconds : Int) := localMidnightAsUtc - getTorontoUtcOffsetMilliseconds torontoClock utcMilliseconds
  .ok (attempt (attempt (attempt localMidnightAsUtc)))

def buildGrowthDashboardDateRange (requestedStartDate requestedEndDate : Option String) (now : Int) :
    Except String GrowthDashboardDateRange := do
  let endDate := (present requestedEndDate).getD (formatTorontoDateKey torontoClock now)
  let startDate ← (present requestedStartDate).elim (addCalendarDays endDate (-29)) .ok
  let startParts ← datePartsFromKey startDate
  let endParts ← datePartsFromKey endDate
  let days := (dateUtc endParts - dateUtc startParts)/Calendar.dayMs + 1
  if days ≤ 0 then .error "Start date must be on or before end date."
  else if maxRangeDays < days then .error "Date range cannot exceed 366 days."
  else .ok {
    startDate
    endDate
    startUtc := ← torontoDateStartUtc torontoClock startDate
    endExclusiveUtc := ← torontoDateStartUtc torontoClock (← addCalendarDays endDate 1)
    days := days.toNat }

end Clock

/-! ### Date keys -/

variable {dateKey : String} {c : Civil} {torontoClock : Int → Int}

/-- A key that is accepted is the date of a day, and days are counted from it. -/
theorem keyDays (ok : datePartsFromKey dateKey = .ok c) (days : Int) :
    dateUtc { c with day := c.day + days } = (daysFromCivil c + days)*Calendar.dayMs := by
  unfold datePartsFromKey at ok
  split at ok
  · cases ok
  split at ok
  · rename_i c' read valid
    cases ok
    have month := civilMonth (dateUtc c/Calendar.dayMs)
    have day := civilDay (dateUtc c/Calendar.dayMs)
    have era := yearFromEra (dateUtc c/Calendar.dayMs)
    rw [show civilFromDays (dateUtc c/Calendar.dayMs) = c from valid] at month day era
    have carried : (c.month - 1)/12 = 0 ∧ (c.month - 1) % 12 + 1 = c.month := by omega
    have at_ (n : Int) : dateUtc { c with day := c.day + n } = daysFromCivil ⟨fullYear c.year,c.month,c.day + n⟩*Calendar.dayMs := by
      simp [dateUtc,utc,time,carried]
    have first := at_ 0
    simp only [Int.add_zero] at first
    have whole : dateUtc c/Calendar.dayMs = daysFromCivil ⟨fullYear c.year,c.month,c.day⟩ := by
      rw [first,Int.mul_ediv_cancel _ (by decide)]
    have year : fullYear c.year = c.year := by
      unfold fullYear at *
      split
      · rename_i early
        rw [if_pos early] at whole
        simp only [daysFromCivil] at whole
        split at whole <;> omega
      · rfl
    rw [at_,year]
    congr 1
    simp only [daysFromCivil]
    omega
  · cases ok

theorem keyUtc (ok : datePartsFromKey dateKey = .ok c) : dateUtc c = daysFromCivil c*Calendar.dayMs := by
  simpa using keyDays ok 0

theorem formatDay (days : Int) : formatDateParts (days*Calendar.dayMs) = plainDate (civilFromDays days) := by
  rw [formatDateParts,civil,Int.mul_ediv_cancel _ (by decide)]

theorem addedDays (ok : datePartsFromKey dateKey = .ok c) (days : Int) :
    addCalendarDays dateKey days = .ok (plainDate (civilFromDays (daysFromCivil c + days))) := by
  rw [addCalendarDays,ok]
  exact congrArg Except.ok ((congrArg formatDateParts (keyDays ok days)).trans (formatDay _))

theorem plainKey {days : Int} (ok : datePartsFromKey (plainDate (civilFromDays days)) = .ok c) :
    c = civilFromDays days ∧ daysFromCivil c = days ∧ 1000 ≤ c.year := by
  have month := civilMonth days
  have day := civilDay days
  unfold datePartsFromKey at ok
  split at ok
  · cases ok
  rename_i c' read
  split at ok
  · cases ok
    obtain ⟨rfl,late⟩ := dateOnlyPlain (by omega) (by omega) read
    exact ⟨rfl,daysOfCivil days,late⟩
  · cases ok

theorem addedNone (days : Int) (h : ∀ c, datePartsFromKey dateKey ≠ .ok c) (key : String) : addCalendarDays dateKey days ≠ .ok key := by
  cases parts : datePartsFromKey dateKey with
  | ok c => exact absurd parts (h c)
  | error message =>
    rw [addCalendarDays,parts]
    nofun

/-! ### Midnights -/

def hourMs : Int := 60*60*1000

/-- Whatever the clock shows, its date never goes back. -/
def DatesAdvance (torontoClock : Int → Int) : Prop := Monotone fun t => torontoClock t/Calendar.dayMs

/-- The clock is less than a day from UTC and is not set within an hour of the date's midnight, and when UTC shows
this midnight, the distance is within an hour of that at the midnight itself. Toronto sets its clocks at two in the morning. -/
def PlainMidnight (torontoClock : Int → Int) (dateKey : String) : Prop :=
  ∀ c, datePartsFromKey dateKey = .ok c → ∃ offset before : Int, offset % 1000 = 0 ∧ before % 1000 = 0 ∧
    (-Calendar.dayMs < before ∧ before < Calendar.dayMs) ∧
    (∀ t, dateUtc c - hourMs ≤ t + offset → t + offset ≤ dateUtc c + hourMs → torontoClock t = t + offset) ∧
    torontoClock (dateUtc c) = dateUtc c + before ∧ offset - hourMs ≤ before ∧ before ≤ offset + hourMs

theorem shownUtc {local_ : Int} (late : -573371 ≤ local_/Calendar.dayMs) : dateUtc (civil local_) = local_/Calendar.dayMs*Calendar.dayMs := by
  have era := yearFromEra (local_/Calendar.dayMs)
  have year : fullYear (civilFromDays (local_/Calendar.dayMs)).year = (civilFromDays (local_/Calendar.dayMs)).year := by
    unfold fullYear
    rw [if_neg (by omega)]
  have back := utcCivil (local_/Calendar.dayMs) 0 0
  rw [dateUtc,civil,year,back,Calendar.dayMs]
  omega

theorem offsetShown {t offset : Int} (shown : torontoClock t = t + offset) (seconds : (t + offset) % 1000 = 0)
    (late : -573371 ≤ (t + offset)/Calendar.dayMs) : getTorontoUtcOffsetMilliseconds torontoClock t = offset := by
  rw [getTorontoUtcOffsetMilliseconds,shown,shownUtc late]
  unfold Calendar.dayMs
  omega

theorem startExact (advance : DatesAdvance torontoClock) (plain : PlainMidnight torontoClock dateKey)
    (ok : datePartsFromKey dateKey = .ok c) (late : -573000 ≤ daysFromCivil c) :
    ∃ start, torontoDateStartUtc torontoClock dateKey = .ok start ∧ ∀ t, start ≤ t ↔ daysFromCivil c ≤ torontoClock t/Calendar.dayMs := by
  obtain ⟨offset,before,seconds,seconds',short,near,earlier,low,high⟩ := plain c ok
  have midnight := keyUtc ok
  rw [midnight] at near earlier
  unfold hourMs Calendar.dayMs at *
  have first : getTorontoUtcOffsetMilliseconds torontoClock (daysFromCivil c*(24*60*60*1000)) = before :=
    offsetShown earlier (by omega) (by unfold Calendar.dayMs; omega)
  have second : getTorontoUtcOffsetMilliseconds torontoClock (daysFromCivil c*(24*60*60*1000) - before) = offset :=
    offsetShown (near _ (by omega) (by omega)) (by omega) (by unfold Calendar.dayMs; omega)
  have third : getTorontoUtcOffsetMilliseconds torontoClock (daysFromCivil c*(24*60*60*1000) - offset) = offset :=
    offsetShown (near _ (by omega) (by omega)) (by omega) (by unfold Calendar.dayMs; omega)
  refine ⟨daysFromCivil c*(24*60*60*1000) - offset,?_,fun t => ⟨fun after => ?_,fun reached => ?_⟩⟩
  · rw [torontoDateStartUtc,ok]
    refine congrArg Except.ok ?_
    simp only [midnight,first,second,third]
  · have advanced : torontoClock (daysFromCivil c*(24*60*60*1000) - offset)/Calendar.dayMs ≤ torontoClock t/Calendar.dayMs := advance after
    rw [near _ (by omega) (by omega)] at advanced
    unfold Calendar.dayMs at advanced
    omega
  · by_contra early
    have advanced : torontoClock t/Calendar.dayMs ≤ torontoClock (daysFromCivil c*(24*60*60*1000) - offset - 1)/Calendar.dayMs := advance (by omega)
    rw [near (daysFromCivil c*(24*60*60*1000) - offset - 1) (by omega) (by omega)] at advanced
    unfold Calendar.dayMs at advanced
    omega

/-! ### Ranges -/

theorem daysFromYear {days : Int} (late : 1000 ≤ (civilFromDays days).year) : -355000 ≤ days := by
  have month := civilMonth days
  have day := civilDay days
  rw [← daysOfCivil days]
  generalize civilFromDays days = c at *
  simp only [daysFromCivil]
  split <;> omega

/-- The range's own days: from the first up to, not including, the one that its end belongs to. -/
structure RangeDays (torontoClock : Int → Int) (range : GrowthDashboardDateRange) (first : Civil) : Prop where
  start : datePartsFromKey range.startDate = .ok first
  some_ : 0 < range.days
  next : addCalendarDays range.endDate 1 = .ok (plainDate (civilFromDays (daysFromCivil first + range.days)))
  starts (t : Int) : range.startUtc ≤ t ↔ daysFromCivil first ≤ torontoClock t/Calendar.dayMs
  ends (t : Int) : t < range.endExclusiveUtc ↔ torontoClock t/Calendar.dayMs < daysFromCivil first + range.days

/-- Both midnights of a range are plain. -/
def PlainEnds (torontoClock : Int → Int) (range : GrowthDashboardDateRange) : Prop :=
  PlainMidnight torontoClock range.startDate ∧ ∀ next, addCalendarDays range.endDate 1 = .ok next → PlainMidnight torontoClock next

theorem rangeDays {requestedStartDate requestedEndDate : Option String} {now : Int} {range : GrowthDashboardDateRange}
    (advance : DatesAdvance torontoClock) (plain : PlainEnds torontoClock range)
    (built : buildGrowthDashboardDateRange torontoClock requestedStartDate requestedEndDate now = .ok range) :
    ∃ first, RangeDays torontoClock range first := by
  simp only [buildGrowthDashboardDateRange,bindOk] at built
  obtain ⟨startDate,_,first,start,last,end_,built⟩ := built
  split at built
  · cases built
  split at built
  · cases built
  rename_i some_ many
  simp only [bindOk] at built
  obtain ⟨startUtc,starts,next,following,endUtc,ends,made⟩ := built
  cases made
  have length : (dateUtc last - dateUtc first)/Calendar.dayMs + 1 = daysFromCivil last + 1 - daysFromCivil first := by
    rw [keyUtc start,keyUtc end_]
    unfold Calendar.dayMs
    omega
  rw [length] at some_ many plain ⊢
  unfold maxRangeDays at many
  rw [addedDays end_] at following
  obtain rfl := Except.ok.inj following
  obtain ⟨after,key⟩ : ∃ after, datePartsFromKey (plainDate (civilFromDays (daysFromCivil last + 1))) = .ok after := by
    cases parts : datePartsFromKey (plainDate (civilFromDays (daysFromCivil last + 1))) with
    | ok after => exact ⟨after,rfl⟩
    | error message =>
      rw [torontoDateStartUtc,parts] at ends
      cases ends
  obtain ⟨is,day,year⟩ := plainKey key
  have late : -355000 ≤ daysFromCivil last + 1 := daysFromYear (is ▸ year)
  obtain ⟨startUtc',starts',from_⟩ := startExact advance plain.1 start (by omega)
  obtain rfl := Except.ok.inj (starts.symm.trans starts')
  obtain ⟨endUtc',ends',until_⟩ := startExact advance (plain.2 _ (addedDays end_ 1)) key (by omega)
  obtain rfl := Except.ok.inj (ends.symm.trans ends')
  have days : daysFromCivil first + ((daysFromCivil last + 1 - daysFromCivil first).toNat : Int) = daysFromCivil last + 1 := by omega
  refine ⟨first,start,by simp only; omega,by simp only [days]; exact addedDays end_ 1,from_,fun t => ?_⟩
  have ending := until_ t
  rw [day] at ending
  rw [days,← not_le,ending,not_le]

/-- A range begins on the date after the last one of the range before. -/
def Follows (range next : GrowthDashboardDateRange) : Prop := addCalendarDays range.endDate 1 = .ok next.startDate

def Within (range : GrowthDashboardDateRange) (t : Int) : Bool := range.startUtc ≤ t && t < range.endExclusiveUtc

variable {range : GrowthDashboardDateRange} {rest : List GrowthDashboardDateRange}

theorem RangeDays.within {first : Civil} (own : RangeDays torontoClock range first) (t : Int) : Within range t ↔
    Covers id (· + 1) (daysFromCivil first,daysFromCivil first + range.days - 1) (torontoClock t/Calendar.dayMs) := by
  simp only [Within,Bool.and_eq_true,decide_eq_true_eq,own.starts t,own.ends t,Covers,id_eq]
  omega

theorem rangesTile (chain : List.IsChain Follows (range::rest)) (days : ∀ r ∈ range::rest, ∃ first, RangeDays torontoClock r first)
    {first : Civil} (own : RangeDays torontoClock range first) : ∃ last parts, Tiles (daysFromCivil first) last parts ∧
      List.Forall₂ (fun r part => ∀ t, Within r t ↔ Covers id (· + 1) part (torontoClock t/Calendar.dayMs)) (range::rest) parts ∧
      ∀ t, t < ((range::rest).getLast (List.cons_ne_nil _ _)).endExclusiveUtc ↔ torontoClock t/Calendar.dayMs ≤ last := by
  induction rest generalizing range first with
  | nil =>
    have some_ := own.some_
    refine ⟨_,_,.one (by omega),.cons own.within .nil,fun t => ?_⟩
    rw [List.getLast_singleton,own.ends t]
    omega
  | cons next rest ih =>
    have some_ := own.some_
    obtain ⟨follows,later⟩ := List.isChain_cons_cons.mp chain
    obtain ⟨after,its⟩ := days next (List.mem_cons_of_mem _ List.mem_cons_self)
    have day : daysFromCivil after = daysFromCivil first + range.days - 1 + 1 := by
      have key := its.start
      rw [← Except.ok.inj (own.next.symm.trans follows)] at key
      have := (plainKey key).2.1
      omega
    obtain ⟨last,parts,tiles,each,ending⟩ := ih later (fun r mem => days r (List.mem_cons_of_mem _ mem)) its
    exact ⟨last,_,.cons (by omega) (day ▸ tiles),.cons own.within each,fun t => by rw [List.getLast_cons_cons]; exact ending t⟩

/-- From the start of the first range to the end of the last one every instant is in exactly one of the ranges. -/
theorem rangesPartition (chain : List.IsChain Follows (range::rest))
    (days : ∀ r ∈ range::rest, ∃ first, RangeDays torontoClock r first) {t : Int} (from_ : range.startUtc ≤ t)
    (until_ : t < ((range::rest).getLast (List.cons_ne_nil _ _)).endExclusiveUtc) :
    (range::rest).countP (Within · t) = 1 := by
  obtain ⟨first,own⟩ := days range List.mem_cons_self
  obtain ⟨last,parts,tiles,each,ending⟩ := rangesTile chain days own
  have adjoin (day : Int) : id day ≤ day + 1 ∧ day + 1 ≤ id (day + 1) := ⟨Int.le_of_lt (Int.lt_succ day),le_rfl⟩
  have count := tilesCount adjoin tiles (torontoClock t/Calendar.dayMs)
  have none_ : ¬Between id (· + 1) parts (torontoClock t/Calendar.dayMs) := fun ⟨_,_,above,below⟩ => not_lt.mpr above below
  have inside : Covers id (· + 1) (daysFromCivil first,last) (torontoClock t/Calendar.dayMs) :=
    ⟨(own.starts t).mp from_,Int.lt_add_one_of_le ((ending t).mp until_)⟩
  rw [if_pos ⟨inside,none_⟩] at count
  rw [← count]
  exact countSame (each.imp fun _ _ same => Bool.eq_iff_iff.mpr ((same t).trans decide_eq_true_iff.symm))

end SpeedySweeties.Reports
