import SpeedySweeties.Routing.WeeklyHours

/-! The closing buffer in real time. The closing minute of the opening that an arrival falls in
is read off the local clock; the clock reaches it at some instant, and the buffer is honoured if
that is not within three minutes of the arrival. The evaluator compares whole local minutes, so
the seconds of an arrival are lost, and so is a clock set back during the three minutes. -/
namespace Routing
open Calendar WallClock

/-- When the opening closes that an arrival falls in, on the local clock. A buffered clock that shows
less than the arrival's is taken to be a day on for an override, a week on for weekly hours and is left as it is for dated ones. -/
structure StoreClosing where
  minute : Int
  wraps : Int
  dated : wraps = 0 ∨ minutesPerDay ≤ wraps

variable (z : Zone)

def StoreClosing.ofOverride (minute : Int) : StoreClosing := ⟨minute,minutesPerDay,by decide⟩
def StoreClosing.ofDates (minute : Int) : StoreClosing := ⟨minute,0,by decide⟩
def StoreClosing.ofWeek (minute : Int) : StoreClosing := ⟨minute,minutesPerWeek,by decide⟩

def overrideClosing (arrivalAt : Int) (override : ManualHoursOverrideEntry) : Option StoreClosing :=
  if override.isClosed = some true then none
  else match parseClock override.openTime,parseClock override.closeTime with
    | some openClock,some closeClock =>
      let arrival := z.minute arrivalAt
      let midnight := arrival/1440*1440
      let opens := midnight + openClock.hour*60 + openClock.minute
      let closes := midnight + closeClock.hour*60 + closeClock.minute
      let closes := if closes ≤ opens then closes + 1440 else closes
      if opens ≤ arrival ∧ arrival < closes then some (.ofOverride closes) else none
    | _,_ => none

/-- The outer option tells whether the arrival falls in the period, the inner one whether that closes. -/
def datedClosing (arrivalAt : Int) (period : GoogleOpeningPeriod) : Option (Option StoreClosing) := do
  let open_ ← period.open_
  let openDate ← open_.date
  let openPseudo ← dateUtc openDate open_
  match period.close with
  | none => if openPseudo ≤ 60000*z.minute arrivalAt then some none else none
  | some close =>
    let closePseudo ← dateUtc (close.date.getD openDate) close
    let closePseudo := if closePseudo ≤ openPseudo then closePseudo + dayInMs else closePseudo
    if openPseudo ≤ 60000*z.minute arrivalAt ∧ 60000*z.minute arrivalAt < closePseudo then
      some (some (.ofDates (closePseudo/60000)))
    else none

def weeklyClosing (arrivalAt : Int) (period : GoogleOpeningPeriod) : Option (Option StoreClosing) := do
  let arrivalWeekMinute := (getLocalDateParts z arrivalAt).weekMinute
  let open_ ← period.open_
  let openWeekMinute ← open_.weekMinute
  match period.close with
  | none =>
    let adjustedArrival := if arrivalWeekMinute < openWeekMinute then arrivalWeekMinute + minutesPerWeek else arrivalWeekMinute
    if openWeekMinute ≤ adjustedArrival then some none else none
  | some close =>
    let closeWeekMinute ← close.weekMinute
    let closeWeekMinute := if closeWeekMinute ≤ openWeekMinute then closeWeekMinute + minutesPerWeek else closeWeekMinute
    [0,minutesPerWeek].findSome? fun weekOffset =>
      if openWeekMinute ≤ arrivalWeekMinute + weekOffset ∧ arrivalWeekMinute + weekOffset < closeWeekMinute then
        some (some (.ofWeek (z.minute arrivalAt + (closeWeekMinute - (arrivalWeekMinute + weekOffset)))))
      else none

def hoursClosing (arrivalAt : Int) (hours : GoogleOpeningHours) : Option StoreClosing :=
  let periods := hours.periods.getD []
  let explicitPeriods := periods.filter (·.explicit)
  if explicitPeriods.isEmpty then (periods.findSome? (weeklyClosing z arrivalAt)).join
  else (explicitPeriods.findSome? (datedClosing z arrivalAt)).join

/-- The closing of the opening that the arrival falls in, by the first of the override, the current and the regular hours that the store has. -/
def storeClosing (store : PickupStoreCandidate) (arrivalAt : Int) : Option StoreClosing :=
  if store.operational then
    match store.manualHoursOverride.find? (·.date = some (dateKey (getLocalDateParts z arrivalAt))) with
    | some override => overrideClosing z arrivalAt override
    | none => (store.currentOpeningHours.or store.regularOpeningHours).bind (hoursClosing z arrivalAt)
  else none

/-- Whenever a store with a closing time is eligible, its clock does not reach that time within three minutes of the arrival. -/
def BufferHonoured (store : PickupStoreCandidate) (arrivalAt : Int) : Prop :=
  (evaluatePickupStoreEligibility z store arrivalAt).eligible = true →
    (evaluatePickupStoreEligibility z store arrivalAt).closingTime ≠ none →
      ∃ closing, storeClosing z store arrivalAt = some closing ∧ z.ReachedAfter arrivalAt closing.minute

/-- The arrival is on a whole minute unless the clock shows the closing minute three minutes later, and the clock is not
set back in these three minutes from the closing minute of dated hours. -/
def InWholeMinutes (store : PickupStoreCandidate) (arrivalAt : Int) : Prop :=
  ∀ closing, storeClosing z store arrivalAt = some closing →
    (arrivalAt % 60000 = 0 ∨ z.minute (arrivalAt + 180000) ≠ closing.minute) ∧
      ¬(closing.wraps = 0 ∧ z.minute (arrivalAt + 180000) < closing.minute ∧
        (closing.minute ≤ z.minute (arrivalAt + 60000) ∨ closing.minute ≤ z.minute (arrivalAt + 120000)))

section Judgement
variable {z} {a : Int}

/-- The buffered minute as the evaluator counts it. -/
def StoreClosing.counted (closing : StoreClosing) (arrival buffered : Int) : Int :=
  if buffered < arrival then buffered + closing.wraps else buffered

theorem countedCases {closing : StoreClosing} {arrival buffered minute : Int} (h : closing.counted arrival buffered ≤ minute) :
    (buffered < arrival ∧ buffered + closing.wraps ≤ minute) ∨ (arrival ≤ buffered ∧ buffered ≤ minute) := by
  unfold StoreClosing.counted at h
  split at h
  · exact .inl ⟨by assumption,h⟩
  · exact .inr ⟨Int.not_lt.mp (by assumption),h⟩

/-- A verdict that speaks of the closing: eligible with a closing time just if the counted minute is not after it. -/
structure Judged (z : Zone) (a : Int) (v : PickupStoreEligibility) (c : Option StoreClosing) : Prop where
  kept : (v.eligible = true ∧ v.closingTime ≠ none) ↔
    ∃ closing, c = some closing ∧ closing.counted (z.minute a) (z.minute (a + 180000)) ≤ closing.minute
  before : ∀ closing, c = some closing → z.minute a < closing.minute

theorem judgedClosed {v : PickupStoreEligibility} (closed : v.eligible = false) : Judged z a v none :=
  ⟨⟨fun ⟨open_,_⟩ => by simp [closed] at open_,fun ⟨_,is,_⟩ => nomatch is⟩,nofun⟩

theorem judgedNever {v : PickupStoreEligibility} (never : v.closingTime = none) : Judged z a v none :=
  ⟨⟨fun ⟨_,has⟩ => absurd never has,fun ⟨_,is,_⟩ => nomatch is⟩,nofun⟩

theorem judgedClosing {closing : StoreClosing} {kept : Bool} {source : PickupStoreHoursSource} {date : Option String} {time : String}
    (fits : kept = true ↔ closing.counted (z.minute a) (z.minute (a + 180000)) ≤ closing.minute) (before : z.minute a < closing.minute) :
    Judged z a (closingVerdict kept source date (some time)) (some closing) := by
  refine ⟨?_,fun c is => by cases is; exact before⟩
  rw [(closingVerdictReason kept source date (some time)).1]
  have has : (closingVerdict kept source date (some time)).closingTime ≠ none := by cases kept <;> simp [closingVerdict]
  exact ⟨fun h => ⟨closing,rfl,fits.mp h.1⟩,fun ⟨_,is,le⟩ => by cases is; exact ⟨fits.mpr le,has⟩⟩

theorem firstRelated {α β γ : Type} {R : β → γ → Prop} {f : α → Option β} {g : α → Option γ} (xs : List α)
    (each : ∀ x ∈ xs, Option.Rel R (f x) (g x)) : Option.Rel R (xs.findSome? f) (xs.findSome? g) := by
  induction xs with
  | nil => exact .none
  | cons x xs ih =>
    have here := each x List.mem_cons_self
    rw [List.findSome?_cons,List.findSome?_cons]
    cases fx : f x <;> cases gx : g x <;> rw [fx,gx] at here <;> cases here
    · exact ih fun y mem => each y (List.mem_cons_of_mem _ mem)
    · rename_i related
      exact .some related

theorem utcParts (at_ hour minute : Int) : utc (getLocalDateParts z at_).year (getLocalDateParts z at_).month (getLocalDateParts z at_).day hour minute =
    60000*(z.minute at_/1440*1440 + hour*60 + minute) := by
  simp only [getLocalDateParts,utcCivil]
  omega

theorem overrideJudged {date : String} {override : ManualHoursOverrideEntry} {openClock closeClock : Clock} (notClosed : override.isClosed ≠ some true)
    (opens : parseClock override.openTime = some openClock) (closes : parseClock override.closeTime = some closeClock) :
    Judged z a (manualVerdict date (getLocalDateParts z a) (getLocalDateParts z (a + 180000)) openClock closeClock) (overrideClosing z a override) := by
  simp only [overrideClosing,if_neg notClosed,opens,closes,manualVerdict,utcParts,localPseudoMinute,dayInMs]
  generalize z.minute a/1440*1440 + openClock.hour*60 + openClock.minute = first
  generalize z.minute a/1440*1440 + closeClock.hour*60 + closeClock.minute = last
  have scaled : (if 60000*last ≤ 60000*first then 60000*last + 24*60*60*1000 else 60000*last) =
      60000*(if last ≤ first then last + 1440 else last) := by split <;> split <;> omega
  rw [scaled]
  generalize (if last ≤ first then last + 1440 else last) = closing
  by_cases inside : first ≤ z.minute a ∧ z.minute a < closing
  · have within : ¬(60000*z.minute a < 60000*first ∨ 60000*closing ≤ 60000*z.minute a) := by omega
    rw [if_neg within,if_pos inside]
    have counted : (if 60000*z.minute (a + 180000) < 60000*z.minute a then 60000*z.minute (a + 180000) + 24*60*60*1000
        else 60000*z.minute (a + 180000)) = 60000*(StoreClosing.ofOverride closing).counted (z.minute a) (z.minute (a + 180000)) := by
      simp only [StoreClosing.counted,StoreClosing.ofOverride,minutesPerDay]
      split <;> split <;> omega
    rw [counted]
    generalize is : (StoreClosing.ofOverride closing).counted (z.minute a) (z.minute (a + 180000)) = buffered
    have fits : (StoreClosing.ofOverride closing).counted (z.minute a) (z.minute (a + 180000)) ≤ closing ↔ ¬60000*closing < 60000*buffered := by omega
    have kept_ : ∀ late : 60000*closing < 60000*buffered, ¬(if 60000*closing < 60000*buffered then
        (⟨false,.closesWithinBuffer,.manual,some date,some (formatClock closeClock.hour closeClock.minute),3⟩ : PickupStoreEligibility)
        else ⟨true,.eligible,.manual,some date,some (formatClock closeClock.hour closeClock.minute),3⟩).eligible = true := fun late => by
      rw [if_pos late]
      exact Bool.false_ne_true
    refine ⟨⟨fun kept => ⟨_,rfl,fits.mpr fun late => kept_ late kept.1⟩,fun ⟨_,same,le⟩ => ?_⟩,fun c same => by cases same; exact inside.2⟩
    cases same
    rw [if_neg (fits.mp le)]
    exact ⟨rfl,nofun⟩
  · have outside : 60000*z.minute a < 60000*first ∨ 60000*closing ≤ 60000*z.minute a := by omega
    rw [if_pos outside,if_neg inside]
    exact judgedClosed rfl

theorem manualJudged {overrides : List ManualHoursOverrideEntry} {v : PickupStoreEligibility}
    (found : inManualOverride z a (a + 180000) overrides = some v) :
    ∃ override, overrides.find? (·.date = some (dateKey (getLocalDateParts z a))) = some override ∧ Judged z a v (overrideClosing z a override) := by
  obtain ⟨override,first,rfl⟩ := Option.map_eq_some_iff.mp found
  refine ⟨override,first,?_⟩
  split
  · rename_i closed
    rw [overrideClosing,if_pos closed]
    exact judgedClosed rfl
  · rename_i notClosed
    cases opens : parseClock override.openTime with
    | none =>
      simp only [overrideClosing,if_neg notClosed,opens]
      exact judgedClosed rfl
    | some openClock =>
      cases closes : parseClock override.closeTime with
      | none =>
        simp only [overrideClosing,if_neg notClosed,opens,closes]
        exact judgedClosed rfl
      | some closeClock => exact overrideJudged notClosed opens closes

theorem dateUtcMinutes {date : GoogleDate} {clock : GoogleOpeningTime} {ms : Int} (is : dateUtc date clock = some ms) : 60000*(ms/60000) = ms := by
  simp only [dateUtc,bind,Option.bind_eq_some_iff,Option.some.injEq] at is
  obtain ⟨year,_,month,_,day,_,rfl⟩ := is
  simp only [utc,time,dayMs]
  omega

theorem datedJudged {source : PickupStoreHoursSource} (period : GoogleOpeningPeriod) :
    Option.Rel (Judged z a) (explicitVerdict (localPseudoMs (getLocalDateParts z a)) (localPseudoMs (getLocalDateParts z (a + 180000))) source period)
      (datedClosing z a period) := by
  rw [localPseudoMinute,localPseudoMinute]
  cases opens : period.open_ with
  | none => simp only [explicitVerdict,datedClosing,opens,bind,Option.bind]; exact .none
  | some open_ =>
    cases dates : open_.date with
    | none => simp only [explicitVerdict,datedClosing,opens,dates,bind,Option.bind]; exact .none
    | some openDate =>
      cases begins : dateUtc openDate open_ with
      | none => simp only [explicitVerdict,datedClosing,opens,dates,begins,bind,Option.bind]; exact .none
      | some openPseudo =>
        cases ends : period.close with
        | none =>
          simp only [explicitVerdict,datedClosing,opens,dates,begins,ends,bind,Option.bind]
          split
          · exact .some (judgedNever rfl)
          · exact .none
        | some close =>
          cases closes : dateUtc (close.date.getD openDate) close with
          | none => simp only [explicitVerdict,datedClosing,opens,dates,begins,ends,closes,bind,Option.bind]; exact .none
          | some closePseudo =>
            simp only [explicitVerdict,datedClosing,opens,dates,begins,ends,closes,bind,Option.bind]
            have whole := dateUtcMinutes closes
            have whole' : 60000*((if closePseudo ≤ openPseudo then closePseudo + dayInMs else closePseudo)/60000) =
                if closePseudo ≤ openPseudo then closePseudo + dayInMs else closePseudo := by
              simp only [dayInMs]
              split <;> omega
            generalize (if closePseudo ≤ openPseudo then closePseudo + dayInMs else closePseudo) = closing at *
            split
            · rename_i inside
              refine .some (judgedClosing ?_ ?_)
              · simp only [decide_eq_true_iff,StoreClosing.counted,StoreClosing.ofDates]
                split <;> omega
              · simp only [StoreClosing.ofDates]
                omega
            · exact .none

theorem weekCome {x y : Int} (back : x ≤ y + 1440) (forth : y ≤ x + 1443) :
    (if (y + 4*1440) % 10080 < (x + 4*1440) % 10080 then (y + 4*1440) % 10080 + minutesPerWeek else (y + 4*1440) % 10080) -
      (x + 4*1440) % 10080 = (if y < x then y + minutesPerWeek else y) - x := by
  simp only [minutesPerWeek,minutesPerDay]
  split <;> split <;> omega

/-- Clocks are set by a day at most, so the minute of the week three minutes on tells how far the clock has come. -/
theorem weekBuffered :
    (if (getLocalDateParts z (a + 180000)).weekMinute < (getLocalDateParts z a).weekMinute then
      (getLocalDateParts z (a + 180000)).weekMinute + minutesPerWeek else (getLocalDateParts z (a + 180000)).weekMinute) -
        (getLocalDateParts z a).weekMinute =
    (if z.minute (a + 180000) < z.minute a then z.minute (a + 180000) + minutesPerWeek else z.minute (a + 180000)) - z.minute a := by
  have three := z.minuteLater a 3
  have size := z.size (a/60000) (a/60000 + 3) (by omega) (by omega)
  have near : z.minute a ≤ z.minute (a + 180000) + 1440 ∧ z.minute (a + 180000) ≤ z.minute a + 1443 := by
    simp only [Int.reduceMul] at three
    rw [three]
    simp only [Zone.minute,Zone.shown]
    omega
  rw [weekMinuteOf,weekMinuteOf]
  exact weekCome near.1 near.2

theorem weeklyJudged {source : PickupStoreHoursSource} (period : GoogleOpeningPeriod) :
    Option.Rel (Judged z a) (weeklyVerdict (getLocalDateParts z a).weekMinute
      (if (getLocalDateParts z (a + 180000)).weekMinute < (getLocalDateParts z a).weekMinute then
        (getLocalDateParts z (a + 180000)).weekMinute + minutesPerWeek else (getLocalDateParts z (a + 180000)).weekMinute) source period)
      (weeklyClosing z a period) := by
  have come := weekBuffered (z := z) (a := a)
  generalize (if (getLocalDateParts z (a + 180000)).weekMinute < (getLocalDateParts z a).weekMinute then
    (getLocalDateParts z (a + 180000)).weekMinute + minutesPerWeek else (getLocalDateParts z (a + 180000)).weekMinute) = buffered at *
  simp only [weeklyClosing]
  generalize (getLocalDateParts z a).weekMinute = arrival at *
  cases opens : period.open_ with
  | none => simp only [weeklyVerdict,opens,bind,Option.bind]; exact .none
  | some open_ =>
    cases begins : open_.weekMinute with
    | none => simp only [weeklyVerdict,opens,begins,bind,Option.bind]; exact .none
    | some openWeekMinute =>
      cases ends : period.close with
      | none =>
        simp only [weeklyVerdict,opens,begins,ends,bind,Option.bind]
        generalize (if arrival < openWeekMinute then arrival + minutesPerWeek else arrival) = adjusted
        split
        · exact .some (judgedNever rfl)
        · exact .none
      | some close =>
        cases closes : close.weekMinute with
        | none => simp only [weeklyVerdict,opens,begins,ends,closes,bind,Option.bind]; exact .none
        | some closeWeekMinute =>
          simp only [weeklyVerdict,opens,begins,ends,closes,bind,Option.bind]
          generalize (if closeWeekMinute ≤ openWeekMinute then closeWeekMinute + minutesPerWeek else closeWeekMinute) = last
          refine firstRelated _ fun offset _ => ?_
          split
          · rename_i inside
            refine .some (judgedClosing ?_ ?_)
            · simp only [decide_eq_true_iff,StoreClosing.counted,StoreClosing.ofWeek]
              omega
            · simp only [StoreClosing.ofWeek]
              omega
          · exact .none

theorem relJoin {v : Option PickupStoreEligibility} {c : Option (Option StoreClosing)} {closed : PickupStoreEligibility}
    (shut : closed.eligible = false) (related : Option.Rel (Judged z a) v c) : Judged z a (v.getD closed) c.join := by
  cases related with
  | none => exact judgedClosed shut
  | some judged => exact judged

theorem hoursJudged {source : PickupStoreHoursSource} {hours : GoogleOpeningHours} {v : PickupStoreEligibility}
    (is : evaluateGoogleHours z a (a + 180000) (some hours) source = some v) : Judged z a v (hoursClosing z a hours) := by
  simp only [evaluateGoogleHours,Option.map_some,Option.some.injEq] at is
  split at is
  · rename_i none_
    rw [← is,hoursClosing,none_]
    exact judgedClosed rfl
  · rename_i none_
    rw [← is,hoursClosing,none_]
    exact judgedClosed rfl
  · rename_i periods _ is_
    rw [← is,hoursClosing,is_]
    simp only [evaluateExplicitDatePeriods,Option.getD_some]
    by_cases plain : (periods.filter (·.explicit)).isEmpty
    · simp only [if_pos plain,Option.getD_none]
      exact relJoin rfl (firstRelated _ fun period _ => weeklyJudged period)
    · simp only [if_neg plain,Option.getD_some]
      exact relJoin rfl (firstRelated _ fun period _ => datedJudged period)

theorem storeJudged (store : PickupStoreCandidate) :
    Judged z a (evaluatePickupStoreEligibility z store a) (storeClosing z store a) := by
  by_cases operates : store.operational
  · simp only [evaluatePickupStoreEligibility,storeClosing,if_pos operates]
    change Judged z a (Option.getD (Option.or (inManualOverride z a (a + 180000) _) _) _) _
    cases manual : inManualOverride z a (a + 180000) store.manualHoursOverride with
    | some v =>
      obtain ⟨override,first,judged⟩ := manualJudged manual
      rw [first]
      exact judged
    | none =>
      have first := Option.map_eq_none_iff.mp manual
      rw [first]
      cases current : store.currentOpeningHours with
      | some hours => exact hoursJudged rfl
      | none =>
        cases regular : store.regularOpeningHours with
        | some hours => exact hoursJudged rfl
        | none => exact judgedClosed rfl
  · simp only [evaluatePickupStoreEligibility,storeClosing,if_neg operates]
    exact judgedClosed rfl

/-- A clock that stands on the closing minute or before it after three minutes, as the evaluator counts them, has not passed it
meanwhile, unless hours with dates let a clock set back count. -/
theorem notPassed {closing : StoreClosing} (before : z.minute a < closing.minute)
    (fits : closing.counted (z.minute a) (z.minute (a + 180000)) ≤ closing.minute)
    (straight : ¬(closing.wraps = 0 ∧ z.minute (a + 180000) < closing.minute ∧
      (closing.minute ≤ z.minute (a + 60000) ∨ closing.minute ≤ z.minute (a + 120000)))) :
    z.minute (a + 60000) < closing.minute ∧ z.minute (a + 120000) < closing.minute := by
  have one := z.minuteLater a 1
  have two := z.minuteLater a 2
  have three := z.minuteLater a 3
  simp only [one_mul,Int.reduceMul] at one two three
  have dated := closing.dated
  rw [one,two,three] at straight
  have counted := countedCases fits
  rw [three] at counted
  rw [one,two]
  obtain ⟨m,is⟩ : ∃ m, a/60000 = m := ⟨_,rfl⟩
  rw [is] at counted straight ⊢
  simp only [Zone.minute,is] at before counted straight
  simp only [Zone.shown,minutesPerDay] at before counted straight dated ⊢
  have size13 := z.size (m + 1) (m + 3) (by omega) (by omega)
  have size23 := z.size (m + 2) (m + 3) (by omega) (by omega)
  have later : z.offset (m + 1) ≠ z.offset m → z.offset (m + 2) = z.offset (m + 1) ∧ z.offset (m + 3) = z.offset (m + 1) :=
    fun changed => ⟨z.apart m (m + 2) changed (by omega) (by omega),z.apart m (m + 3) changed (by omega) (by omega)⟩
  have last : z.offset (m + 2) ≠ z.offset (m + 1) → z.offset (m + 3) = z.offset (m + 2) := fun changed => by
    have := z.apart (m + 1) (m + 3)
    rw [show m + 1 + 1 = m + 2 by omega] at this
    exact this changed (by omega) (by omega)
  rcases counted with counted | counted <;> omega

end Judgement

/-- The buffer is honoured just where no seconds of the arrival and no set back clock are lost. -/
theorem bufferHonouredExactly (store : PickupStoreCandidate) (arrivalAt : Int) :
    BufferHonoured z store arrivalAt ↔ InWholeMinutes z store arrivalAt := by
  have judged := storeJudged (z := z) (a := arrivalAt) store
  constructor
  · intro honoured closing is
    have before := judged.before closing is
    by_cases fits : closing.counted (z.minute arrivalAt) (z.minute (arrivalAt + 180000)) ≤ closing.minute
    · obtain ⟨open_,has⟩ := judged.kept.mpr ⟨closing,is,fits⟩
      obtain ⟨_,same,reached⟩ := honoured open_ has
      cases is.symm.trans same
      obtain ⟨first,second,third⟩ := (z.reachedAfter before).mp reached
      refine ⟨third.imp_right fun less => Int.ne_of_lt less,fun ⟨_,_,passed⟩ => ?_⟩
      omega
    · unfold StoreClosing.counted at fits
      refine ⟨.inr fun same => fits ?_,fun ⟨dated,early,_⟩ => fits ?_⟩
      · rw [if_neg (by omega)]
        omega
      · split <;> omega
  · intro whole open_ has
    obtain ⟨closing,is,fits⟩ := judged.kept.mp ⟨open_,has⟩
    have before := judged.before closing is
    obtain ⟨exact_,straight⟩ := whole closing is
    obtain ⟨first,second⟩ := notPassed before fits straight
    refine ⟨closing,is,(z.reachedAfter before).mpr ⟨first,second,exact_.imp_right fun other => ?_⟩⟩
    rcases countedCases fits with counted | counted <;> omega

/-- The store of the service's tests: open on Tuesdays from 10:00 to 20:00. -/
def municipalStreet : PickupStoreCandidate where
  id := "store-a"
  name := "The Beer Store - Municipal Street"
  pickupType := "BEER_STORE"
  addressLine1 := "710 Municipal Street"
  city := "Guelph"
  province := "ON"
  latitude := some (.finite (1088/25))
  longitude := some (.finite (-4013/50))
  isActive := none
  routingPriority := none
  googleBusinessStatus := some "OPERATIONAL"
  regularOpeningHours := some ⟨some [weeklyPeriod 2 10 2 20]⟩
  currentOpeningHours := none
  manualHoursOverride := []

/-- An arrival at 19:57:30 leaves two minutes and a half. -/
theorem bufferLostInSeconds : ¬∀ (z : Zone) (store : PickupStoreCandidate) (arrivalAt : Int), BufferHonoured z store arrivalAt := by
  intro always
  have eligible : (evaluatePickupStoreEligibility (Zone.fixed (-240)) municipalStreet 1788911850000).eligible = true := by decide +kernel
  have closes : (evaluatePickupStoreEligibility (Zone.fixed (-240)) municipalStreet 1788911850000).closingTime = some "20:00" := by decide +kernel
  obtain ⟨closing,is,reached⟩ := always _ _ _ eligible (by rw [closes]; nofun)
  have minute : (storeClosing (Zone.fixed (-240)) municipalStreet 1788911850000).map (·.minute) = some 29814960 := by decide +kernel
  rw [is,Option.map_some,Option.some.injEq] at minute
  have := reached 1788912000000 (by decide) (by rw [minute]; decide)
  omega

end Routing
