import Mathlib.Data.List.Pairwise
import Mathlib.Tactic.Linarith
import SpeedySweeties.Routing.Hours

/-! Weekly opening periods repeat for ever. Each one is an opening of the week it starts in,
for a week at most, and all its shifts by whole weeks; the evaluator looks at two of them, and
for periods that do not overlap what it says is what the endless schedule says. -/
namespace Routing
open WallClock

structure WeeklySpan where
  opens : Int
  closes : Option Int
  inWeek : 0 ≤ opens ∧ opens < minutesPerWeek
  aWeek : ∀ closing, closes = some closing → opens < closing ∧ closing ≤ opens + minutesPerWeek
  deriving DecidableEq

namespace WeeklySpan
variable (s : WeeklySpan)

/-- The shift by `weeks` is open in `minute`. -/
def Contains (weeks minute : Int) : Prop :=
  s.opens + weeks*minutesPerWeek ≤ minute ∧ ∀ closing, s.closes = some closing → minute < closing + weeks*minutesPerWeek

/-- The shift by `weeks` does not close before `minute`. -/
def LastsUntil (weeks minute : Int) : Prop := ∀ closing, s.closes = some closing → minute ≤ closing + weeks*minutesPerWeek

def Disjoint (t : WeeklySpan) : Prop := ∀ minute weeks others, s.Contains weeks minute → ¬t.Contains others minute

instance : Std.Symm Disjoint := ⟨fun _ _ h minute weeks others left right => h minute others weeks right left⟩

end WeeklySpan

/-- The opening of a period whose times lie in the week; a closing time that is not after the opening one is next week's. -/
def weeklySpan (period : GoogleOpeningPeriod) : Option WeeklySpan :=
  match period.open_.bind (·.weekMinute) with
  | none => none
  | some opens =>
    if inWeek : 0 ≤ opens ∧ opens < minutesPerWeek then
      match period.close with
      | none => some ⟨opens,none,inWeek,nofun⟩
      | some close =>
        match close.weekMinute with
        | none => none
        | some closes =>
          if within : 0 ≤ closes ∧ closes < minutesPerWeek then
            some ⟨opens,some (if closes ≤ opens then closes + minutesPerWeek else closes),inWeek,fun closing is => by
              cases is
              split <;> constructor <;> simp only [minutesPerWeek,minutesPerDay] at * <;> omega⟩
          else none
    else none

variable {period : GoogleOpeningPeriod} {s : WeeklySpan} {a b : Int} {source : PickupStoreHoursSource}

theorem spanCases (is : weeklySpan period = some s) : ∃ open_, period.open_ = some open_ ∧ open_.weekMinute = some s.opens ∧
    ((period.close = none ∧ s.closes = none) ∨ ∃ close closes, period.close = some close ∧ close.weekMinute = some closes ∧
      s.closes = some (if closes ≤ s.opens then closes + minutesPerWeek else closes)) := by
  unfold weeklySpan at is
  split at is
  · cases is
  rename_i opens begins
  obtain ⟨open_,has,minute⟩ := Option.bind_eq_some_iff.mp begins
  refine ⟨open_,has,?_⟩
  split at is
  · split at is
    · rename_i ends
      cases is
      exact ⟨minute,.inl ⟨ends,rfl⟩⟩
    rename_i close ends
    split at is
    · cases is
    rename_i closes closing
    split at is
    · cases is
      exact ⟨minute,.inr ⟨close,closes,ends,closing,rfl⟩⟩
    · cases is
  · cases is

/-- Only the shift that a minute of the week falls in this week, or the one it falls in a week on, can contain it. -/
theorem shiftOfWeek {closing weeks : Int} (low : 0 ≤ a) (high : a < minutesPerWeek) (closes : s.closes = some closing)
    (within : s.Contains weeks a) : weeks = 0 ∨ weeks = -1 := by
  have := s.inWeek
  have := s.aWeek closing closes
  have := within.1
  have := within.2 closing closes
  simp only [minutesPerWeek,minutesPerDay] at *
  omega

theorem shiftUnique {closing weeks others : Int} (closes : s.closes = some closing) (left : s.Contains weeks a)
    (right : s.Contains others a) : weeks = others := by
  have := s.aWeek closing closes
  have := left.1
  have := left.2 closing closes
  have := right.1
  have := right.2 closing closes
  simp only [minutesPerWeek,minutesPerDay] at *
  omega

/-- What one period says of an arrival in it; `weeks` is the shift that contains it. -/
structure SpanVerdict (s : WeeklySpan) (a : Int) (v : PickupStoreEligibility) : Prop where
  contains : ∃ weeks, s.Contains weeks a ∧ (v.eligible = true ↔ s.LastsUntil weeks (a + 3))
  reason : v.reason = if v.eligible then .eligible else .closesWithinBuffer

theorem closingVerdictReason (kept : Bool) (source : PickupStoreHoursSource) (date time : Option String) :
    (closingVerdict kept source date time).eligible = kept ∧
      (closingVerdict kept source date time).reason = if kept then .eligible else .closesWithinBuffer := by
  cases kept <;> exact ⟨rfl,rfl⟩

theorem neverClosing (inWeek : 0 ≤ s.opens ∧ s.opens < minutesPerWeek) (low : 0 ≤ a) :
    s.opens ≤ if a < s.opens then a + minutesPerWeek else a := by
  split
  · linarith [inWeek.2]
  · linarith

theorem weeklyVerdictSome {v : PickupStoreEligibility} (is : weeklySpan period = some s) (low : 0 ≤ a)
    (told : weeklyVerdict a (a + 3) source period = some v) : SpanVerdict s a v := by
  obtain ⟨open_,has,opens,⟨ends,never⟩ | ⟨close,closes,ends,closing,until_⟩⟩ := spanCases is
  · simp only [weeklyVerdict,has,opens,ends,bind,Option.bind] at told
    rw [if_pos (neverClosing s.inWeek low)] at told
    cases told
    refine ⟨⟨-1,⟨?_,fun c is => absurd (never.symm.trans is) nofun⟩,fun _ c is => absurd (never.symm.trans is) nofun,fun _ => rfl⟩,rfl⟩
    linarith [s.inWeek.2]
  · simp only [weeklyVerdict,has,opens,ends,closing,bind,Option.bind] at told
    generalize (if closes ≤ s.opens then closes + minutesPerWeek else closes) = last at *
    obtain ⟨offset,mem,found⟩ := List.exists_of_findSome?_eq_some told
    split at found
    · rename_i inside
      obtain rfl := Option.some.inj found
      have verdict := closingVerdictReason (decide (a + 3 + offset ≤ last)) source none (some (closingClock close))
      have weeks : ∃ weeks, offset = -weeks*minutesPerWeek := by
        rcases List.mem_cons.mp mem with rfl | mem
        · exact ⟨0,by simp⟩
        · exact ⟨-1,by simpa using mem⟩
      obtain ⟨weeks,rfl⟩ := weeks
      refine ⟨⟨weeks,⟨by linarith [inside.1],fun c is => ?_⟩,?_⟩,?_⟩
      · cases until_.symm.trans is
        linarith [inside.2]
      · rw [verdict.1,decide_eq_true_iff]
        refine ⟨fun late c is => ?_,fun lasts => ?_⟩
        · cases until_.symm.trans is
          linarith
        · linarith [lasts _ until_]
      · rw [verdict.2,verdict.1]
    · cases found

theorem weeklyVerdictNone {weeks : Int} (is : weeklySpan period = some s) (low : 0 ≤ a) (high : a < minutesPerWeek)
    (told : weeklyVerdict a b source period = none) : ¬s.Contains weeks a := by
  intro within
  obtain ⟨open_,has,opens,⟨ends,never⟩ | ⟨close,closes,ends,closing,until_⟩⟩ := spanCases is
  · simp only [weeklyVerdict,has,opens,ends,bind,Option.bind] at told
    rw [if_pos (neverClosing s.inWeek low)] at told
    cases told
  · simp only [weeklyVerdict,has,opens,ends,closing,bind,Option.bind] at told
    have only := shiftOfWeek low high until_ within
    have here := List.findSome?_eq_none_iff.mp told (-weeks*minutesPerWeek) (by
      rcases only with rfl | rfl <;> simp)
    generalize (if closes ≤ s.opens then closes + minutesPerWeek else closes) = last at *
    split at here
    · cases here
    · rename_i outside
      exact outside ⟨by linarith [within.1],by linarith [within.2 _ until_]⟩

section Schedule
variable (z : Zone) {periods : List GoogleOpeningPeriod} {arrivalAt bufferedArrivalAt : Int}

def spans (periods : List GoogleOpeningPeriod) : List WeeklySpan := periods.filterMap weeklySpan

theorem weekMinuteBounds (date : Int) : 0 ≤ (getLocalDateParts z date).weekMinute ∧ (getLocalDateParts z date).weekMinute < minutesPerWeek := by
  rw [weekMinuteOf]
  exact ⟨Int.emod_nonneg _ (by decide),Int.emod_lt_of_pos _ (by decide)⟩

theorem bufferedMinute {a b : Int} (low : 0 ≤ a) (high : a < minutesPerWeek) (later : b = (a + 3) % minutesPerWeek) :
    (if b < a then b + minutesPerWeek else b) = a + 3 := by
  simp only [minutesPerWeek,minutesPerDay] at *
  split <;> omega

/-- The first period that has something to say is the one whose shift contains the arrival. -/
theorem weeklyDecides (source : PickupStoreHoursSource) (weekly : ∀ period ∈ periods, (weeklySpan period).isSome) (disjoint : (spans periods).Pairwise WeeklySpan.Disjoint)
    {a : Int} (low : 0 ≤ a) (high : a < minutesPerWeek) (mem : s ∈ spans periods) {weeks : Int} (within : s.Contains weeks a) :
    ∃ v, periods.findSome? (weeklyVerdict a (a + 3) source) = some v ∧ SpanVerdict s a v := by
  obtain ⟨period,among,is⟩ := List.mem_filterMap.mp mem
  cases told : periods.findSome? (weeklyVerdict a (a + 3) source) with
  | none => exact absurd within (weeklyVerdictNone is low high (List.findSome?_eq_none_iff.mp told period among))
  | some v =>
    obtain ⟨first,among',verdict⟩ := List.exists_of_findSome?_eq_some told
    obtain ⟨t,is'⟩ := Option.isSome_iff_exists.mp (weekly first among')
    have sound := weeklyVerdictSome is' low verdict
    obtain ⟨others,inside,_⟩ := sound.contains
    by_cases same : t = s
    · exact ⟨v,rfl,same ▸ sound⟩
    · exact absurd within (disjoint.forall (List.mem_filterMap.mpr ⟨first,among',is'⟩) mem same a others weeks inside)

theorem SpanVerdict.eligible {v : PickupStoreEligibility} {weeks : Int} (h : SpanVerdict s a v) (within : s.Contains weeks a) :
    v.eligible = true ↔ s.LastsUntil weeks (a + 3) := by
  obtain ⟨others,inside,lasts⟩ := h.contains
  cases closes : s.closes with
  | none => exact ⟨fun _ c is => absurd (closes.symm.trans is) nofun,fun _ => lasts.mpr fun c is => absurd (closes.symm.trans is) nofun⟩
  | some closing => rwa [shiftUnique closes within inside]

/-- On periods that do not overlap the evaluator answers as the schedule that repeats them every week. -/
theorem weeklyHoursExact (weekly : ∀ period ∈ periods, (weeklySpan period).isSome) (disjoint : (spans periods).Pairwise WeeklySpan.Disjoint)
    (later : (getLocalDateParts z bufferedArrivalAt).weekMinute = ((getLocalDateParts z arrivalAt).weekMinute + 3) % minutesPerWeek) :
    let arrival := (getLocalDateParts z arrivalAt).weekMinute
    let result := evaluateWeeklyPeriods z arrivalAt bufferedArrivalAt periods source
    (result.eligible = true ↔ ∃ s ∈ spans periods, ∃ weeks, s.Contains weeks arrival ∧ s.LastsUntil weeks (arrival + 3)) ∧
      (result.reason = .closesWithinBuffer ↔ ∃ s ∈ spans periods, ∃ weeks, s.Contains weeks arrival ∧ ¬s.LastsUntil weeks (arrival + 3)) := by
  intro arrival result
  have bounds : 0 ≤ arrival ∧ arrival < minutesPerWeek := weekMinuteBounds z arrivalAt
  have result_ : result = (periods.findSome? (weeklyVerdict arrival (arrival + 3) source)).getD ⟨false,.notOpenAtArrival,source,none,none,3⟩ := by
    simp only [result,evaluateWeeklyPeriods]
    rw [bufferedMinute bounds.1 bounds.2 later]
  have sound : ∀ {v}, periods.findSome? (weeklyVerdict arrival (arrival + 3) source) = some v → ∃ s ∈ spans periods, SpanVerdict s arrival v := by
    intro v found
    obtain ⟨period,mem,told⟩ := List.exists_of_findSome?_eq_some found
    obtain ⟨s,is⟩ := Option.isSome_iff_exists.mp (weekly period mem)
    exact ⟨s,List.mem_filterMap.mpr ⟨period,mem,is⟩,weeklyVerdictSome is bounds.1 told⟩
  have decides : ∀ {s}, s ∈ spans periods → ∀ {weeks}, s.Contains weeks arrival →
      (result.eligible = true ↔ s.LastsUntil weeks (arrival + 3)) ∧
        (result.reason = if result.eligible then PickupStoreEligibilityReason.eligible else .closesWithinBuffer) := by
    intro s mem weeks within
    obtain ⟨v,found,verdict⟩ := weeklyDecides source weekly disjoint bounds.1 bounds.2 mem within
    rw [result_,found]
    exact ⟨verdict.eligible within,verdict.reason⟩
  constructor
  · refine ⟨fun open_ => ?_,fun ⟨s,mem,weeks,within,lasts⟩ => (decides mem within).1.mpr lasts⟩
    rw [result_] at open_
    cases found : periods.findSome? (weeklyVerdict arrival (arrival + 3) source) with
    | none => simp [found] at open_
    | some v =>
      obtain ⟨s,mem,verdict⟩ := sound found
      obtain ⟨weeks,within,lasts⟩ := verdict.contains
      exact ⟨s,mem,weeks,within,lasts.mp (by simpa [found] using open_)⟩
  · refine ⟨fun closes => ?_,fun ⟨s,mem,weeks,within,ends⟩ => ?_⟩
    · rw [result_] at closes
      cases found : periods.findSome? (weeklyVerdict arrival (arrival + 3) source) with
      | none => simp [found] at closes
      | some v =>
        obtain ⟨s,mem,verdict⟩ := sound found
        obtain ⟨weeks,within,lasts⟩ := verdict.contains
        refine ⟨s,mem,weeks,within,fun until_ => ?_⟩
        have reason := verdict.reason
        rw [if_pos (lasts.mpr until_)] at reason
        simp [found,reason] at closes
    · have decided := decides mem within
      rw [decided.2,if_neg fun open_ => ends (decided.1.mp open_)]

def weeklyPeriod (openDay openHour closeDay closeHour : Int) : GoogleOpeningPeriod :=
  ⟨some { day := some openDay, hour := some openHour, minute := some 0 },some { day := some closeDay, hour := some closeHour, minute := some 0 }⟩

/-- Tuesday from 10:00 to 20:00 and Saturday night from 18:00 to 02:00; the arrival is at 01:58 on Sunday. -/
def tuesdayAndSaturdayNight : List GoogleOpeningPeriod := [weeklyPeriod 2 10 2 20,weeklyPeriod 6 18 0 2]

theorem weeklyHoursExactSaturdayNight :
    let arrival := (getLocalDateParts (Zone.fixed (-240)) 1789279080000).weekMinute
    let result := evaluateWeeklyPeriods (Zone.fixed (-240)) 1789279080000 1789279260000 tuesdayAndSaturdayNight .regular
    (result.eligible = true ↔ ∃ s ∈ spans tuesdayAndSaturdayNight, ∃ weeks, s.Contains weeks arrival ∧ s.LastsUntil weeks (arrival + 3)) ∧
      (result.reason = .closesWithinBuffer ↔
        ∃ s ∈ spans tuesdayAndSaturdayNight, ∃ weeks, s.Contains weeks arrival ∧ ¬s.LastsUntil weeks (arrival + 3)) := by
  have apart : (spans tuesdayAndSaturdayNight).Pairwise WeeklySpan.Disjoint := by
    have is : spans tuesdayAndSaturdayNight = [⟨3480,some 4080,by decide,by decide⟩,⟨9720,some 10200,by decide,by decide⟩] := by decide +kernel
    rw [is,List.pairwise_pair]
    intro minute weeks others left right
    have := left.1
    have := left.2 4080 rfl
    have := right.1
    have := right.2 10200 rfl
    simp only [minutesPerWeek,minutesPerDay] at *
    omega
  exact weeklyHoursExact _ (by decide +kernel) apart (by decide +kernel)

end Schedule
end Routing
