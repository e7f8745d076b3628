import Mathlib.Data.Rat.Floor
import SpeedySweeties.Schema

/-! The figures of the reports. Minutes and percentages are kept exact up to the rounding that the
services do themselves. -/
namespace SpeedySweeties.Reports

/-- `Math.round(value * 10 ** digits) / 10 ** digits` -/
def round (value : ℚ) (digits : Nat) : ℚ := (⌊value * 10 ^ digits + 1/2⌋ : ℚ) / 10 ^ digits

def average (values : List ℚ) : Option ℚ := if values = [] then none else some (round (values.sum / values.length) 1)

def percentage (numerator denominator : Nat) : Option ℚ :=
  if denominator = 0 then none else some (round (numerator / denominator * 100 : ℚ) 1)

def minutesBetween (start end_ : Option Int) : Option ℚ := do
  let minutes := (((← end_) - (← start) : Int) : ℚ) / 60000
  if 0 ≤ minutes then some minutes else none

/-- An id as a condition sees it: neither a missing one nor the empty text. -/
def present (id : Option String) : Option String := id.filter (· ≠ "")

end SpeedySweeties.Reports
