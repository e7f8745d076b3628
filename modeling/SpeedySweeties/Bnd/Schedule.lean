import Mathlib.Data.Int.Basic
import SpeedySweeties.Library.Calendar

/-! The opening hours of the B&D dispatcher. A date is its day number, an instant its
milliseconds since 1970; `wall` is the time zone, which shows an instant as the local
date and time, read as UTC. -/
namespace SpeedySweeties

structure BndDayHours where
  day : Nat
  startMinute : Option Int
  endMinute : Option Int
  deriving DecidableEq, Repr

structure BndDayWindow where
  date : Int
  startAt : Option Int
  endAt : Option Int
  deriving DecidableEq, Repr

structure BndHours where
  weekly : List BndDayHours
  today : Option BndDayWindow
  deriving DecidableEq, Repr

structure BndSchedule where
  open_ : Bool
  nextChangeAt : Int
  deriving DecidableEq, Repr

namespace Bnd

def fallbackHours : BndHours where
  weekly := (List.range 7).map fun day =>
    ⟨day,some (if day = 0 then 690 else 570),some (if day = 0 then 1020 else if day ≤ 3 then 1200 else 1260)⟩
  today := none

variable (wall : Int → Int)

def bndLocalDate (time : Int) : Int := wall time / Calendar.dayMs

/-- Three corrections by the offset that the zone has at the guess before. -/
def bndLocalInstant (date minute : Int) : Int :=
  let target := date*Calendar.dayMs + minute*60000
  let correct := fun result => target - (wall result - result)
  correct (correct (correct target))

/-- 1970 began on a Thursday. -/
def weekday (date : Int) : Nat := ((date + 4) % 7).toNat

def bndDayWindow (date : Int) (hours : BndHours) : BndDayWindow :=
  match hours.today.filter (·.date = date) with
  | some today => today
  | none =>
    match hours.weekly.find? (·.day = weekday date) with
    | some rule => ⟨date,rule.startMinute.map (bndLocalInstant wall date),rule.endMinute.map (bndLocalInstant wall date)⟩
    | none => ⟨date,none,none⟩

def validRule (rule : BndDayHours) : Bool :=
  rule.day ≤ 6 &&
    match rule.startMinute, rule.endMinute with
    | none, none => true
    | some start, some end_ => 0 ≤ start && end_ ≤ 1440 && start < end_
    | _, _ => false

def validToday (today : BndDayWindow) : Bool :=
  match today.startAt, today.endAt with
  | none, none => true
  | some start, some end_ =>
    start < end_ && bndLocalDate wall start = today.date && end_ ≤ bndLocalInstant wall (today.date + 1) 0
  | _, _ => false

/-- `parseBndHours`: what it takes hours for. -/
def validHours (hours : BndHours) : Bool :=
  hours.weekly.length = 7 && hours.weekly.all validRule && (hours.weekly.map (·.day)).Nodup && hours.today.all (validToday wall)

def getBndSchedule (hours : BndHours) (now : Int) : BndSchedule :=
  let date := bndLocalDate wall now
  let upcoming : BndSchedule :=
    match (List.range 7).findSome? fun n : Nat => (bndDayWindow wall (date + n + 1) hours).startAt with
    | some start => ⟨false,start⟩
    | none => ⟨false,bndLocalInstant wall (date + 1) 0⟩
  match (bndDayWindow wall date hours).startAt, (bndDayWindow wall date hours).endAt with
  | some start, some end_ => if now < start then ⟨false,start⟩ else if now < end_ then ⟨true,end_⟩ else upcoming
  | _, _ => upcoming

def nextBndCheckAt (hours : BndHours) (earliest : Int) : Int :=
  let schedule := getBndSchedule wall hours earliest
  if schedule.open_ then earliest else schedule.nextChangeAt

end Bnd
end SpeedySweeties
