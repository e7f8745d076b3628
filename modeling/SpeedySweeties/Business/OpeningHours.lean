import Mathlib.Data.Rat.Defs
import SpeedySweeties.Library.Calendar
import SpeedySweeties.Library.JsText
import SpeedySweeties.Library.Ranking

/-! Whether the shop is open, from the schedule that was saved last. Everything is in minutes of
the Toronto clock, which the formatter of the runtime reads off an instant; `none` for a minute is
the NaN of a date that `Date` cannot hold. -/
namespace SpeedySweeties.Business
open Calendar JsText Ranking

def day : Int := 1440
def week : Int := 7*day

structure PointDate where
  year : Option ℚ
  month : Option ℚ
  day : Option ℚ
  deriving DecidableEq

structure OpeningPoint where
  day : Option ℚ := none
  hour : Option ℚ := none
  minute : Option ℚ := none
  date : Option PointDate := none
  deriving DecidableEq

structure OpeningPeriod where
  open_ : Option OpeningPoint
  close : Option OpeningPoint
  deriving DecidableEq

/-- `periods` is `none` where it is no array. -/
structure OpeningHours where
  periods : Option (List OpeningPeriod)
  deriving DecidableEq

structure SavedBusinessHours where
  fetchedAt : String
  regularOpeningHours : Option OpeningHours
  currentOpeningHours : Option OpeningHours
  deriving DecidableEq

structure BusinessHours where
  isOpen : Bool
  nextOpenText : Option String
  stale : Bool
  deriving DecidableEq, Repr

/-- The value of a number for which `Number.isInteger` holds. -/
def integer (value : Option ℚ) : Option Int := value.bind fun q => if q.den = 1 then some q.num else none

/-- Towards zero, as `Date.UTC` takes its arguments. -/
def truncated (q : ℚ) : Int := q.num.tdiv q.den

/-- `Date.UTC`: a year of one or two digits is one of the last century. -/
def dateUTC (year month day hour minute : Int) : Option Int :=
  let time := utc (if 0 ≤ year ∧ year ≤ 99 then 1900 + year else year) month day hour minute
  if time.natAbs ≤ 8640000000000000 then some time else none

/-- `none` for null, `some none` for NaN. -/
def dateMinute (point : OpeningPoint) : Option (Option Int) := do
  let d ← point.date
  let year ← integer d.year
  let month ← integer d.month
  let date ← integer d.day
  if month < 1 ∨ 12 < month ∨ date < 1 ∨ 31 < date then none
  else some ((dateUTC year month date (truncated (point.hour.getD 0)) (truncated (point.minute.getD 0))).map (· / 60000))

def inRange (value : Option ℚ) (bound : Int) : Bool := (integer value).any fun n => 0 ≤ n && n < bound

def clockValid (p : OpeningPoint) : Bool := inRange (some (p.hour.getD 0)) 24 && inRange (some (p.minute.getD 0)) 60

def OpeningPoint.clock (p : OpeningPoint) : Int := (p.hour.getD 0).num*60 + (p.minute.getD 0).num

/-- A day from Sunday, 0, to Saturday, 6. -/
def OpeningPoint.weekday (p : OpeningPoint) : Option Int := if inRange p.day 7 then integer p.day else none

/-- `a <= b`, which no NaN satisfies. -/
def atMost (a b : Option Int) : Bool := a.any fun a => b.any fun b => a ≤ b

abbrev Interval := Option Int × Option Int

def Interval.contains (i : Interval) (current : Int) : Bool := i.1.any (· ≤ current) && i.2.any (current < ·)

/-- The Sunday of the week, in minutes, that the day which begins at `today` is in. -/
def sundayOf (today : Int) : Int := today - Calendar.weekday (today/day)*day

/-- What a period adds to the intervals; `none` where the whole schedule is given up. -/
def periodIntervals (useCurrent : Bool) (today firstDate : Int) (period : OpeningPeriod) : Option (List Interval) := do
  let open_ ← period.open_
  if !clockValid open_ || period.close.any (!clockValid ·) then none
  match useCurrent,dateMinute open_ with
  | true,some datedOpen =>
    -- an opening without a close lasts as long as the current hours do
    let datedClose ← period.close.elim (some (some (firstDate + week))) dateMinute
    if atMost datedClose datedOpen then none
    else some [(datedOpen,datedClose.map (min · (firstDate + week)))]
  | _,_ =>
    let openDay ← open_.weekday
    match period.close with
    | none =>
      -- around the clock, which is a Sunday's midnight without a close
      if openDay ≠ 0 ∨ open_.clock ≠ 0 then none else some [(some (today - week),some (today + week))]
    | some close =>
      let closeDay ← close.weekday
      let start := openDay*day + open_.clock
      let end_ := closeDay*day + close.clock
      let end_ := if end_ ≤ start then end_ + week else end_
      some ([-week,0,week].map fun offset => (some (sundayOf today + start + offset),some (sundayOf today + end_ + offset)))

def intervalsOf (useCurrent : Bool) (today firstDate : Int) : List OpeningPeriod → Option (List Interval)
  | [] => some []
  | period::periods => do
    let first ← periodIntervals useCurrent today firstDate period
    some (first ++ (← intervalsOf useCurrent today firstDate periods))

def nextStart (current : Int) (intervals : List Interval) : Option Int :=
  (ranked compare (intervals.filterMap fun i => i.1.filter (current < ·))).head?

def weekdayNames : List String := ["Sunday","Monday","Tuesday","Wednesday","Thursday","Friday","Saturday"]

def openingText (current next : Int) : String :=
  let difference := next/day - current/day
  let when_ := if difference = 0 then "today" else if difference = 1 then "tomorrow" else
    "on " ++ weekdayNames.getD (Calendar.weekday (next/day)).toNat ""
  let h := next % day/60
  let hour := if h % 12 = 0 then 12 else h % 12
  "Speedy Sweeties will be open " ++ when_ ++ " at " ++ toString hour ++ ":" ++ padStart 2 (toString (next % 60)) ++ " " ++
    (if 12 ≤ h then "PM" else "AM") ++ "."

/-- `toISOString().slice(0, 10)` of a day; years of more than four digits come with a sign and six digits. -/
def isoDay (days : Int) : String :=
  let date := civilFromDays days
  let year := if 0 ≤ date.year ∧ date.year ≤ 9999 then padStart 4 (toString date.year)
    else (if date.year < 0 then "-" else "+") ++ padStart 6 (toString date.year.natAbs)
  String.ofList ((year ++ "-" ++ padStart 2 (toString date.month) ++ "-" ++ padStart 2 (toString date.day)).toList.take 10)

def dailyHoursSlot (minute : Int) : String := isoDay ((minute - 180)/day)

/-- The hours in force: the current ones, for the fetch date and six days more, if they were saved, else the regular ones. -/
def usesCurrent (saved : SavedBusinessHours) (current fetched : Int) : Bool :=
  current/day*day < fetched/day*day + week && (saved.currentOpeningHours.bind (·.periods)).isSome

def periodsInForce (saved : SavedBusinessHours) (current fetched : Int) : Option (List OpeningPeriod) :=
  (if usesCurrent saved current fetched then saved.currentOpeningHours else saved.regularOpeningHours).bind (·.periods)

/-- The evaluation at a Toronto minute of a schedule fetched at another. -/
def evaluateAt (saved : SavedBusinessHours) (current fetched : Int) : Option BusinessHours := do
  if current < fetched then none
  let today := current/day*day
  let firstDate := fetched/day*day
  let useCurrent := usesCurrent saved current fetched
  let periods ← periodsInForce saved current fetched
  let intervals ← intervalsOf useCurrent today firstDate periods
  let isOpen := intervals.any (·.contains current)
  let nextOpenText := if isOpen then none else
    ((nextStart current intervals).filter fun next => !useCurrent || next < firstDate + week).map (openingText current)
  some ⟨isOpen,nextOpenText,dailyHoursSlot fetched != dailyHoursSlot current⟩

section Clock
variable (parseDate : String → Option Int) (torontoMinute : Int → Int)

/-- The formatter throws on an invalid date. -/
def evaluateBusinessHours (saved : SavedBusinessHours) (now : Int) : Except String (Option BusinessHours) :=
  match parseDate saved.fetchedAt with
  | none => .error "Invalid time value"
  | some fetchedAt => .ok (evaluateAt saved (torontoMinute now) (torontoMinute fetchedAt))

end Clock

end SpeedySweeties.Business
