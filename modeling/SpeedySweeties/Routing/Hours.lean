import SpeedySweeties.Library.WallClock
import SpeedySweeties.Routing.Stores

/-! Whether a store is open when a driver gets there and for three minutes more: an override of
the arrival's date decides before the current hours of Google and these before the regular ones.
Instants are milliseconds since 1970; the local clock is cut to its minute before anything is compared. -/
namespace Routing
open Calendar JsText WallClock

inductive PickupStoreHoursSource where
  | manual
  | current
  | regular
  | none_
  deriving DecidableEq, Repr

inductive PickupStoreEligibilityReason where
  | eligible
  | businessNotOperational
  | manualClosed
  | notOpenAtArrival
  | closesWithinBuffer
  | hoursUnavailable
  deriving DecidableEq, Repr

def pickupStoreClosingBufferMinutes : Int := 3
def pickupStoreClosingBufferMs : Int := pickupStoreClosingBufferMinutes*60*1000

structure PickupStoreEligibility where
  eligible : Bool
  reason : PickupStoreEligibilityReason
  hoursSource : PickupStoreHoursSource
  closingDate : Option String := none
  closingTime : Option String := none
  closingBufferMinutes : Int := pickupStoreClosingBufferMinutes
  deriving DecidableEq, Repr

structure LocalDateParts where
  year : Int
  month : Int
  day : Int
  weekday : Int
  hour : Int
  minute : Int
  deriving DecidableEq, Repr

variable (z : Zone)

def getLocalDateParts (date : Int) : LocalDateParts :=
  let minute := z.minute date
  let local_ := civilFromDays (minute/1440)
  ⟨local_.year,local_.month,local_.day,weekday (minute/1440),minute % 1440/60,minute % 60⟩

/-- `YYYY-MM-DD` -/
def dateText (year month day : Int) : String :=
  padStart 4 (toString year) ++ "-" ++ padStart 2 (toString month) ++ "-" ++ padStart 2 (toString day)

def dateKey (parts : LocalDateParts) : String := dateText parts.year parts.month parts.day

def localPseudoMs (parts : LocalDateParts) : Int := utc parts.year parts.month parts.day parts.hour parts.minute

/-- `/^(?:[01]\d|2[0-3]):[0-5]\d$/` -/
def timePattern (text : List Char) : Bool :=
  match text with
  | [a,b,':',c,d] => ((a ∈ ['0','1'] ∧ b.isDigit) ∨ (a = '2' ∧ b ∈ ['0','1','2','3'])) && (c ∈ ['0','1','2','3','4','5']) && d.isDigit
  | _ => false

structure Clock where
  hour : Int
  minute : Int
  deriving DecidableEq, Repr

def digit (c : Char) : Int := (c.toNat : Int) - 48

def parseClock (value : Option String) : Option Clock :=
  match (value.getD "").toList with
  | [a,b,colon,c,d] =>
    if timePattern [a,b,colon,c,d] then some ⟨10*digit a + digit b,10*digit c + digit d⟩ else none
  | _ => none

def formatClock (hour minute : Int) : String := padStart 2 (toString hour) ++ ":" ++ padStart 2 (toString minute)

def dayInMs : Int := 24*60*60*1000

/-- What the override of the arrival's date says, once its clocks are read. -/
def manualVerdict (arrivalDate : String) (arrivalParts bufferedParts : LocalDateParts) (openClock closeClock : Clock) : PickupStoreEligibility :=
  let openPseudo := utc arrivalParts.year arrivalParts.month arrivalParts.day openClock.hour openClock.minute
  let closePseudo := utc arrivalParts.year arrivalParts.month arrivalParts.day closeClock.hour closeClock.minute
  let closePseudo := if closePseudo ≤ openPseudo then closePseudo + dayInMs else closePseudo
  let arrivalPseudo := localPseudoMs arrivalParts
  let bufferedPseudo := localPseudoMs bufferedParts
  let bufferedPseudo := if bufferedPseudo < arrivalPseudo then bufferedPseudo + dayInMs else bufferedPseudo
  let closingTime := some (formatClock closeClock.hour closeClock.minute)
  if arrivalPseudo < openPseudo ∨ closePseudo ≤ arrivalPseudo then ⟨false,.notOpenAtArrival,.manual,some arrivalDate,closingTime,3⟩
  else if closePseudo < bufferedPseudo then ⟨false,.closesWithinBuffer,.manual,some arrivalDate,closingTime,3⟩
  else ⟨true,.eligible,.manual,some arrivalDate,closingTime,3⟩

def inManualOverride (arrivalAt bufferedArrivalAt : Int) (overrides : List ManualHoursOverrideEntry) : Option PickupStoreEligibility :=
  let arrivalParts := getLocalDateParts z arrivalAt
  let arrivalDate := dateKey arrivalParts
  (overrides.find? (·.date = some arrivalDate)).map fun override =>
    if override.isClosed = some true then ⟨false,.manualClosed,.manual,some arrivalDate,none,3⟩
    else match parseClock override.openTime,parseClock override.closeTime with
      | some openClock,some closeClock =>
        manualVerdict arrivalDate arrivalParts (getLocalDateParts z bufferedArrivalAt) openClock closeClock
      | _,_ => ⟨false,.hoursUnavailable,.manual,some arrivalDate,none,3⟩

/-- `Date.UTC` of a date and the clock beside it; `none` for the NaN of a date without one of its parts. -/
def dateUtc (date : GoogleDate) (clock : GoogleOpeningTime) : Option Int := do
  some (utc (← date.year) (← date.month) (← date.day) (clock.hour.getD 0) (clock.minute.getD 0))

/-- `value` as a condition: neither absent nor zero. -/
def truthy (value : Option Int) : Bool := value.any (· ≠ 0)

def GoogleOpeningPeriod.openDate (period : GoogleOpeningPeriod) : Option GoogleDate := period.open_.bind (·.date)

def GoogleOpeningPeriod.explicit (period : GoogleOpeningPeriod) : Bool :=
  period.openDate.any fun date => truthy date.year && truthy date.month && truthy date.day

def closingVerdict (kept : Bool) (hoursSource : PickupStoreHoursSource) (closingDate closingTime : Option String) : PickupStoreEligibility :=
  if kept then ⟨true,.eligible,hoursSource,closingDate,closingTime,3⟩
  else ⟨false,.closesWithinBuffer,hoursSource,closingDate,closingTime,3⟩

def closingClock (close : GoogleOpeningTime) : String := formatClock (close.hour.getD 0) (close.minute.getD 0)

/-- What one dated period says, if the arrival falls in it. -/
def explicitVerdict (arrivalPseudo bufferedPseudo : Int) (hoursSource : PickupStoreHoursSource) (period : GoogleOpeningPeriod) :
    Option PickupStoreEligibility := do
  let open_ ← period.open_
  let openDate ← open_.date
  let openPseudo ← dateUtc openDate open_
  match period.close with
  | none => if openPseudo ≤ arrivalPseudo then some ⟨true,.eligible,hoursSource,none,none,3⟩ else none
  | some close =>
    let closeDate := close.date.getD openDate
    let closePseudo ← dateUtc closeDate close
    let closePseudo := if closePseudo ≤ openPseudo then closePseudo + dayInMs else closePseudo
    if openPseudo ≤ arrivalPseudo ∧ arrivalPseudo < closePseudo then
      some (closingVerdict (bufferedPseudo ≤ closePseudo) hoursSource
        (some (dateText (closeDate.year.getD 0) (closeDate.month.getD 0) (closeDate.day.getD 0))) (some (closingClock close)))
    else none

def evaluateExplicitDatePeriods (arrivalAt bufferedArrivalAt : Int) (periods : List GoogleOpeningPeriod)
    (hoursSource : PickupStoreHoursSource) : Option PickupStoreEligibility :=
  let explicitPeriods := periods.filter (·.explicit)
  if explicitPeriods.isEmpty then none
  else
    let arrivalPseudo := localPseudoMs (getLocalDateParts z arrivalAt)
    let bufferedPseudo := localPseudoMs (getLocalDateParts z bufferedArrivalAt)
    some ((explicitPeriods.findSome? (explicitVerdict arrivalPseudo bufferedPseudo hoursSource)).getD
      ⟨false,.notOpenAtArrival,hoursSource,none,none,3⟩)

def minutesPerDay : Int := 24*60
def minutesPerWeek : Int := 7*minutesPerDay

def LocalDateParts.weekMinute (parts : LocalDateParts) : Int := parts.weekday*minutesPerDay + parts.hour*60 + parts.minute

/-- The minute of the week, `none` where the day is no number. -/
def GoogleOpeningTime.weekMinute (time : GoogleOpeningTime) : Option Int :=
  time.day.map fun day => day*minutesPerDay + time.hour.getD 0*60 + time.minute.getD 0

/-- What one weekly period says, if the arrival falls in it this week or next. -/
def weeklyVerdict (arrivalWeekMinute bufferedWeekMinute : Int) (hoursSource : PickupStoreHoursSource) (period : GoogleOpeningPeriod) :
    Option PickupStoreEligibility := do
  let open_ ← period.open_
  let openWeekMinute ← open_.weekMinute
  match period.close with
  | none =>
    let adjustedArrival := if arrivalWeekMinute < openWeekMinute then arrivalWeekMinute + minutesPerWeek else arrivalWeekMinute
    if openWeekMinute ≤ adjustedArrival then some ⟨true,.eligible,hoursSource,none,none,3⟩ else none
  | some close =>
    let closeWeekMinute ← close.weekMinute
    let closeWeekMinute := if closeWeekMinute ≤ openWeekMinute then closeWeekMinute + minutesPerWeek else closeWeekMinute
    [0,minutesPerWeek].findSome? fun weekOffset =>
      if openWeekMinute ≤ arrivalWeekMinute + weekOffset ∧ arrivalWeekMinute + weekOffset < closeWeekMinute then
        some (closingVerdict (bufferedWeekMinute + weekOffset ≤ closeWeekMinute) hoursSource none (some (closingClock close)))
      else none

def evaluateWeeklyPeriods (arrivalAt bufferedArrivalAt : Int) (periods : List GoogleOpeningPeriod) (hoursSource : PickupStoreHoursSource) :
    PickupStoreEligibility :=
  let arrivalWeekMinute := (getLocalDateParts z arrivalAt).weekMinute
  let bufferedWeekMinute := (getLocalDateParts z bufferedArrivalAt).weekMinute
  let bufferedWeekMinute := if bufferedWeekMinute < arrivalWeekMinute then bufferedWeekMinute + minutesPerWeek else bufferedWeekMinute
  (periods.findSome? (weeklyVerdict arrivalWeekMinute bufferedWeekMinute hoursSource)).getD
    ⟨false,.notOpenAtArrival,hoursSource,none,none,3⟩

def evaluateGoogleHours (arrivalAt bufferedArrivalAt : Int) (hoursValue : Option GoogleOpeningHours) (hoursSource : PickupStoreHoursSource) :
    Option PickupStoreEligibility :=
  hoursValue.map fun hours =>
    match hours.periods with
    | none => ⟨false,.notOpenAtArrival,hoursSource,none,none,3⟩
    | some [] => ⟨false,.notOpenAtArrival,hoursSource,none,none,3⟩
    | some periods =>
      (evaluateExplicitDatePeriods z arrivalAt bufferedArrivalAt periods hoursSource).getD
        (evaluateWeeklyPeriods z arrivalAt bufferedArrivalAt periods hoursSource)

def evaluatePickupStoreEligibility (store : PickupStoreCandidate) (projectedArrivalAt : Int) : PickupStoreEligibility :=
  if store.operational then
    let bufferedArrivalAt := projectedArrivalAt + pickupStoreClosingBufferMs
    ((inManualOverride z projectedArrivalAt bufferedArrivalAt store.manualHoursOverride).or <|
      (evaluateGoogleHours z projectedArrivalAt bufferedArrivalAt store.currentOpeningHours .current).or <|
        evaluateGoogleHours z projectedArrivalAt bufferedArrivalAt store.regularOpeningHours .regular).getD
      ⟨false,.hoursUnavailable,.none_,none,none,3⟩
  else ⟨false,.businessNotOperational,.none_,none,none,3⟩

section LocalClock

theorem localPseudoMinute (date : Int) : localPseudoMs (getLocalDateParts z date) = 60000*z.minute date := by
  simp only [localPseudoMs,getLocalDateParts,utcCivil]
  omega

theorem weekMinuteOf (date : Int) : (getLocalDateParts z date).weekMinute = (z.minute date + 4*1440) % 10080 := by
  simp only [LocalDateParts.weekMinute,getLocalDateParts,weekday,minutesPerDay]
  omega

end LocalClock
end Routing
