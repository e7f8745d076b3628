/-! UTC dates of the proleptic Gregorian calendar as JavaScript's `Date` computes
them, on milliseconds since 1970. A day past the end of its month runs on into the
next one, as in `setUTCFullYear`. -/
namespace Calendar

def dayMs : Int := 24*60*60*1000

structure Civil where
  year : Int
  month : Int
  day : Int
  deriving DecidableEq, Repr

/-- Years start in March here, so that a leap day is the last day of its year. -/
def daysFromCivil (c : Civil) : Int :=
  let year := if c.month ≤ 2 then c.year - 1 else c.year
  let era := year / 400
  let yearOfEra := year % 400
  let dayOfYear := (153*((c.month + 9) % 12) + 2)/5 + c.day - 1
  era*146097 + yearOfEra*365 + yearOfEra/4 - yearOfEra/100 + dayOfYear - 719468

def civilFromDays (days : Int) : Civil :=
  let shifted := days + 719468
  let era := shifted / 146097
  let dayOfEra := shifted % 146097
  let yearOfEra := (dayOfEra - dayOfEra/1460 + dayOfEra/36524 - dayOfEra/146096)/365
  let dayOfYear := dayOfEra - (365*yearOfEra + yearOfEra/4 - yearOfEra/100)
  let shiftedMonth := (5*dayOfYear + 2)/153
  let month := if shiftedMonth < 10 then shiftedMonth + 3 else shiftedMonth - 9
  { year := yearOfEra + era*400 + (if month ≤ 2 then 1 else 0)
    month := month
    day := dayOfYear - (153*shiftedMonth + 2)/5 + 1 }

def civil (time : Int) : Civil := civilFromDays (time / dayMs)

def time (c : Civil) (timeOfDay : Int) : Int := daysFromCivil c*dayMs + timeOfDay

def setUTCFullYear (value : Int) (year : Int) : Int :=
  time { civil value with year } (value % dayMs)

def lastDayOfMonth (year month : Int) : Int :=
  (civilFromDays (daysFromCivil ⟨if month = 12 then year + 1 else year,month % 12 + 1,1⟩ - 1)).day

def addCalendarMonths (value : Int) (months : Nat) : Int :=
  let start := civil value
  let total := start.month - 1 + months
  let year := start.year + total/12
  let month := total % 12 + 1
  time ⟨year,month,min start.day (lastDayOfMonth year month)⟩ (value % dayMs)

/-- The year of a 400 year era and the day of that year that a day of the era lies in, with years from March on. -/
def yearOfEra (dayOfEra : Int) : Int := (dayOfEra - dayOfEra/1460 + dayOfEra/36524 - dayOfEra/146096)/365

def dayOfYear (dayOfEra : Int) : Int :=
  dayOfEra - (365*yearOfEra dayOfEra + yearOfEra dayOfEra/4 - yearOfEra dayOfEra/100)

theorem yearOfEraBounds {d : Int} (low : 0 ≤ d) (high : d < 146097) :
    0 ≤ yearOfEra d ∧ yearOfEra d < 400 ∧ 0 ≤ dayOfYear d ∧ dayOfYear d < 366 := by
  by_cases last : d = 146096
  · subst last; decide
  have noLeap : d/146096 = 0 := by omega
  obtain ⟨y,is⟩ : ∃ y, yearOfEra d = y := ⟨_,rfl⟩
  simp only [dayOfYear,is]
  rw [yearOfEra,noLeap] at is
  have century : y/100 = d/36524 := by
    have : d/36524 = 0 ∨ d/36524 = 1 ∨ d/36524 = 2 ∨ d/36524 = 3 := by omega
    rcases this with at_ | at_ | at_ | at_ <;> rw [at_] at is ⊢ <;> omega
  rw [century]
  have : d/36524 = 0 ∨ d/36524 = 1 ∨ d/36524 = 2 ∨ d/36524 = 3 := by omega
  rcases this with at_ | at_ | at_ | at_ <;> rw [at_] at is century ⊢ <;> omega

def shiftedDate (era year dayOfYear : Int) : Civil :=
  let shiftedMonth := (5*dayOfYear + 2)/153
  let month := if shiftedMonth < 10 then shiftedMonth + 3 else shiftedMonth - 9
  ⟨year + era*400 + (if month ≤ 2 then 1 else 0),month,dayOfYear - (153*shiftedMonth + 2)/5 + 1⟩

theorem daysOfShifted {era year day : Int} (first : 0 ≤ year) (last : year < 400) (low : 0 ≤ day) (high : day < 366) :
    daysFromCivil (shiftedDate era year day) = era*146097 + (365*year + year/4 - year/100) + day - 719468 := by
  have months : 0 ≤ (5*day + 2)/153 ∧ (5*day + 2)/153 ≤ 11 := by omega
  obtain ⟨m,is⟩ : ∃ m, (5*day + 2)/153 = m := ⟨_,rfl⟩
  rw [is] at months
  simp only [daysFromCivil,shiftedDate,is]
  by_cases early : m < 10
  · have next : ¬m + 3 ≤ 2 := by omega
    have back : (m + 3 + 9) % 12 = m := by omega
    rw [if_pos early,if_neg next,if_neg next,back]
    omega
  · have next : m - 9 ≤ 2 := by omega
    have back : (m - 9 + 9) % 12 = m := by omega
    rw [if_neg early,if_pos next,if_pos next,back]
    omega

theorem civilShifted (days : Int) : civilFromDays days =
    shiftedDate ((days + 719468)/146097) (yearOfEra ((days + 719468) % 146097)) (dayOfYear ((days + 719468) % 146097)) := rfl

theorem daysOfCivil (days : Int) : daysFromCivil (civilFromDays days) = days := by
  have low : 0 ≤ (days + 719468) % 146097 := Int.emod_nonneg _ (by decide)
  have high : (days + 719468) % 146097 < 146097 := Int.emod_lt_of_pos _ (by decide)
  obtain ⟨first,last,opens,closes⟩ := yearOfEraBounds low high
  rw [civilShifted,daysOfShifted first last opens closes,dayOfYear]
  omega

theorem civilMonth (days : Int) : 1 ≤ (civilFromDays days).month ∧ (civilFromDays days).month ≤ 12 := by
  have low : 0 ≤ (days + 719468) % 146097 := Int.emod_nonneg _ (by decide)
  have high : (days + 719468) % 146097 < 146097 := Int.emod_lt_of_pos _ (by decide)
  obtain ⟨_,_,opens,closes⟩ := yearOfEraBounds low high
  simp only [civilShifted,shiftedDate]
  split <;> omega

/-- The day of the week, from 0 for Sunday. -/
def weekday (days : Int) : Int := (days + 4) % 7

/-- `Date.UTC(year, month - 1, day, hour, minute)`, which carries a part outside its range over to the next one. -/
def utc (year month day hour minute : Int) : Int :=
  time ⟨year + (month - 1)/12,(month - 1) % 12 + 1,day⟩ ((hour*60 + minute)*60000)

theorem utcCivil (days hour minute : Int) :
    utc (civilFromDays days).year (civilFromDays days).month (civilFromDays days).day hour minute =
      (days*1440 + hour*60 + minute)*60000 := by
  have month := civilMonth days
  have year : ((civilFromDays days).month - 1)/12 = 0 := by omega
  have same : ((civilFromDays days).month - 1) % 12 + 1 = (civilFromDays days).month := by omega
  rw [utc,year,same,Int.add_zero,time,daysOfCivil,dayMs]
  omega

/-- `\d{4}-\d{2}-\d{2}` -/
def dateOnly (text : String) : Option Civil :=
  match text.toList with
  | [a,b,c,d,'-',e,f,'-',g,h] =>
    if [a,b,c,d,e,f,g,h].all Char.isDigit then
      let digit (c : Char) : Int := (c.toNat : Int) - 48
      some ⟨1000*digit a + 100*digit b + 10*digit c + digit d,10*digit e + digit f,10*digit g + digit h⟩
    else none
  | _ => none

/-- `new Date(text + "T23:59:59.999Z")`, `none` where that is not a date. -/
def endOfDay (c : Civil) : Option Int :=
  if 1 ≤ c.month ∧ c.month ≤ 12 ∧ 1 ≤ c.day ∧ c.day ≤ 31 then some (time c (dayMs - 1)) else none

example : ((dateOnly "2024-02-29").bind endOfDay).map (fun t => civil (setUTCFullYear t 2025)) =
    some ⟨2025,3,1⟩ := by decide
example : ((dateOnly "2023-10-31").bind endOfDay).map (fun t => civil (addCalendarMonths t 16)) =
    some ⟨2025,2,28⟩ := by decide

end Calendar
