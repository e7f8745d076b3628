import SpeedySweeties.Library.Json
import SpeedySweeties.Library.Ranking
import SpeedySweeties.Routing.ClosingBuffer

/-! Dated overrides of a store's hours: what the administrator's form accepts, and what becomes
of an override that closes after midnight. An override is looked up by the local date of the
arrival alone, so an overnight one ends with its own date. -/
namespace Routing
open Calendar JsText WallClock

structure NormalizedOverride where
  date : String
  isClosed : Bool
  openTime : Option String
  closeTime : Option String
  note : Option String
  deriving DecidableEq, Repr

def NormalizedOverride.entry (o : NormalizedOverride) : ManualHoursOverrideEntry := ⟨some o.date,some o.isClosed,o.openTime,o.closeTime⟩

/-- The text of a day's date. -/
def dayText (days : Int) : String := dateText (civilFromDays days).year (civilFromDays days).month (civilFromDays days).day

def isValidDateOnly (value : String) : Bool :=
  (dateOnly value).any fun date =>
    1 ≤ date.month && date.month ≤ 12 && 1 ≤ date.day && date.day ≤ 31 && dayText (daysFromCivil date) = value

variable {ν : Type}

def entryField (fields : List (String × Json ν)) (name : String) : Option (Json ν) := (fields.find? (·.1 = name)).map (·.2)

/-- `typeof value === "string" ? value.trim() : undefined` -/
def trimmedText : Option (Json ν) → Option String
  | some (.text value) => some (trim value)
  | _ => none

def boolean : Option (Json ν) → Option Bool
  | some (.bool value) => some value
  | _ => none

/-- `!time || !TIME_PATTERN.test(time)`, the other way round. -/
def validTime (time : Option String) : Bool := time.any fun text => timePattern text.toList

def parseOverrideEntry (seenDates : List String) : Json ν → Except String NormalizedOverride
  | .object fields => do
    let date := (trimmedText (entryField fields "date")).getD ""
    let openTime := trimmedText (entryField fields "openTime")
    let closeTime := trimmedText (entryField fields "closeTime")
    let note := trimmedText (entryField fields "note")
    if !isValidDateOnly date then throw "Each manual hours override requires a valid YYYY-MM-DD date"
    if date ∈ seenDates then throw ("Duplicate manual hours override date: " ++ date)
    match boolean (entryField fields "isClosed") with
    | none => throw ("Manual hours override for " ++ date ++ " requires isClosed true or false")
    | some isClosed =>
      if !isClosed && !validTime openTime then throw ("Manual hours override for " ++ date ++ " requires openTime in HH:MM format")
      if !isClosed && !validTime closeTime then throw ("Manual hours override for " ++ date ++ " requires closeTime in HH:MM format")
      if note.any fun text => 200 < JsText.length text then
        throw ("Manual hours override note for " ++ date ++ " must be 200 characters or fewer")
      pure ⟨date,isClosed,if isClosed then none else openTime,if isClosed then none else closeTime,note.filter (· ≠ "")⟩
  | _ => throw "Each manual hours override entry must be an object"

def parseOverrideEntries : List String → List (Json ν) → Except String (List NormalizedOverride)
  | _,[] => pure []
  | seenDates,raw::entries => do
    let entry ← parseOverrideEntry seenDates raw
    let rest ← parseOverrideEntries (seenDates ++ [entry.date]) entries
    pure (entry::rest)

variable (localeCompare : String → String → Ordering)

/-- `none` for the null that clears the column. -/
def parseManualHoursOverride : Json ν → Except String (Option (List NormalizedOverride))
  | .null => pure none
  | .array entries =>
    if 31 < entries.length then throw "manualHoursOverride can contain at most 31 dated entries"
    else do
      let normalized ← parseOverrideEntries [] entries
      pure (some (Ranking.ranked (fun a b => localeCompare a.date b.date) normalized))
  | _ => throw "manualHoursOverride must be an array or null"

section Accepted

/-- An override with the checks that it has passed. -/
structure Accepted (o : NormalizedOverride) : Prop where
  date : isValidDateOnly o.date = true
  opens : o.isClosed = false → validTime o.openTime = true
  closes : o.isClosed = false → validTime o.closeTime = true

variable {seen : List String} {raw : Json ν} {o : NormalizedOverride}

theorem acceptedEntry (ok : parseOverrideEntry seen raw = .ok o) : Accepted o ∧ o.date ∉ seen := by
  cases raw with
  | object fields =>
    simp only [parseOverrideEntry,bind,Except.bind,throw,throwThe,MonadExceptOf.throw,pure,Except.pure] at ok
    split at ok
    · cases ok
    rename_i valid
    split at ok
    · cases ok
    rename_i fresh
    split at ok
    · cases ok
    rename_i isClosed _
    split at ok
    · cases ok
    rename_i opens
    split at ok
    · cases ok
    rename_i closes
    split at ok
    · cases ok
    cases ok
    refine ⟨⟨by simpa using valid,?_,?_⟩,fresh⟩
    · rintro rfl
      simpa using opens
    · rintro rfl
      simpa using closes
  | _ => cases ok

theorem acceptedEntries {entries : List (Json ν)} {os : List NormalizedOverride} (ok : parseOverrideEntries seen entries = .ok os) :
    (∀ o ∈ os, Accepted o ∧ o.date ∉ seen) ∧ os.Pairwise fun a b => a.date ≠ b.date := by
  induction entries generalizing seen os with
  | nil =>
    cases ok
    exact ⟨nofun,.nil⟩
  | cons raw entries ih =>
    simp only [parseOverrideEntries,bind,Except.bind,pure,Except.pure] at ok
    split at ok
    · cases ok
    rename_i entry first
    split at ok
    · cases ok
    rename_i rest others
    cases ok
    obtain ⟨each,apart⟩ := ih others
    refine ⟨fun o mem => ?_,List.pairwise_cons.mpr ⟨fun o mem same => (each o mem).2 (by simp [same]),apart⟩⟩
    rcases List.mem_cons.mp mem with rfl | mem
    · exact acceptedEntry first
    · exact ⟨(each o mem).1,fun seen_ => (each o mem).2 (by simp [seen_])⟩

theorem acceptedOverrides {value : Json ν} {os : List NormalizedOverride} (ok : parseManualHoursOverride localeCompare value = .ok (some os)) :
    (∀ o ∈ os, Accepted o) ∧ os.Pairwise fun a b => a.date ≠ b.date := by
  cases value with
  | array entries =>
    simp only [parseManualHoursOverride,bind,Except.bind,pure,Except.pure] at ok
    split at ok
    · cases ok
    split at ok
    · cases ok
    rename_i normalized each
    cases ok
    obtain ⟨accepted,apart⟩ := acceptedEntries each
    refine ⟨fun o mem => (accepted o (Ranking.memRanked.mp mem)).1,?_⟩
    exact (List.Perm.pairwise_iff (fun {a b} h => Ne.symm h) Ranking.rankedPerm).mpr apart
  | _ => cases ok

end Accepted

section Dates

def twoDigits : List Char → Int
  | [a,b] => 10*digit a + digit b
  | _ => -1

theorem paddedDigits (n : Fin 100) : (padStart 2 (toString (n.val : Int))).toList.length = 2 ∧
    twoDigits (padStart 2 (toString (n.val : Int))).toList = n.val := by
  revert n
  decide +kernel

theorem padded {n : Int} (low : 0 ≤ n) (high : n < 100) :
    (padStart 2 (toString n)).toList.length = 2 ∧ twoDigits (padStart 2 (toString n)).toList = n := by
  obtain ⟨k,rfl⟩ := Int.eq_ofNat_of_zero_le low
  exact paddedDigits ⟨k,by omega⟩

theorem paddedInjective {m n : Int} (low : 0 ≤ m) (high : m < 100) (low' : 0 ≤ n) (high' : n < 100)
    (same : (padStart 2 (toString m)).toList = (padStart 2 (toString n)).toList) : m = n := by
  rw [← (padded low high).2,same,(padded low' high').2]

/-- The day of an override, in days since 1970. -/
def NormalizedOverride.day (o : NormalizedOverride) : Int := ((dateOnly o.date).map daysFromCivil).getD 0

theorem Accepted.dayText {o : NormalizedOverride} (h : Accepted o) : dayText o.day = o.date := by
  have valid := h.date
  unfold isValidDateOnly at valid
  obtain ⟨date,is,checked⟩ := (Option.any_eq_true _ _).mp valid
  simp only [Bool.and_eq_true,decide_eq_true_eq] at checked
  rw [NormalizedOverride.day,is]
  exact checked.2

end Dates

section Clocks

theorem digitBounds {c : Char} (h : c.isDigit) : 0 ≤ digit c ∧ digit c ≤ 9 := by
  simp only [Char.isDigit,Bool.and_eq_true,decide_eq_true_eq] at h
  have low : 48 ≤ c.toNat := h.1
  have high : c.toNat ≤ 57 := h.2
  unfold digit
  omega

theorem patternBounds {a b colon c d : Char} (h : timePattern [a,b,colon,c,d]) :
    (0 ≤ 10*digit a + digit b ∧ 10*digit a + digit b < 24) ∧ 0 ≤ 10*digit c + digit d ∧ 10*digit c + digit d < 60 := by
  unfold timePattern at h
  split at h
  · rename_i is
    cases is
    simp only [Bool.and_eq_true,decide_eq_true_eq] at h
    obtain ⟨⟨hour,tens⟩,last⟩ := h
    have ones := digitBounds last
    have tens_ : 0 ≤ digit c ∧ digit c ≤ 5 := by
      simp only [List.mem_cons,List.not_mem_nil,or_false] at tens
      rcases tens with rfl | rfl | rfl | rfl | rfl | rfl <;> decide
    have hour_ : 0 ≤ 10*digit a + digit b ∧ 10*digit a + digit b < 24 := by
      rcases hour with ⟨first,second⟩ | ⟨rfl,second⟩
      · have first_ : 0 ≤ digit a ∧ digit a ≤ 1 := by
          simp only [List.mem_cons,List.not_mem_nil,or_false] at first
          rcases first with rfl | rfl <;> decide
        have := digitBounds second
        omega
      · simp only [List.mem_cons,List.not_mem_nil,or_false] at second
        rcases second with rfl | rfl | rfl | rfl <;> decide
    exact ⟨hour_,by omega,by omega⟩
  · cases h

theorem clockBounds {value : Option String} {clock : Clock} (is : parseClock value = some clock) :
    (0 ≤ clock.hour ∧ clock.hour < 24) ∧ 0 ≤ clock.minute ∧ clock.minute < 60 := by
  unfold parseClock at is
  split at is
  · split at is
    · rename_i matches_
      cases is
      exact patternBounds matches_
    · cases is
  · cases is

theorem formatClockInjective {left right : Option String} {x y : Clock} (is : parseClock left = some x) (is' : parseClock right = some y)
    (same : formatClock x.hour x.minute = formatClock y.hour y.minute) : x = y := by
  obtain ⟨hour,minute⟩ := clockBounds is
  obtain ⟨hour',minute'⟩ := clockBounds is'
  have lists := congrArg String.toList same
  simp only [formatClock,String.toList_append] at lists
  obtain ⟨front,minutes⟩ := List.append_inj' lists ((padded minute.1 (by omega)).1.trans (padded minute'.1 (by omega)).1.symm)
  obtain ⟨hours,_⟩ := List.append_inj' front rfl
  obtain ⟨xh,xm⟩ := x
  obtain ⟨yh,ym⟩ := y
  rw [Clock.mk.injEq]
  exact ⟨paddedInjective hour.1 (Int.lt_trans hour.2 (by decide)) hour'.1 (Int.lt_trans hour'.2 (by decide)) hours,
    paddedInjective minute.1 (Int.lt_trans minute.2 (by decide)) minute'.1 (Int.lt_trans minute'.2 (by decide)) minutes⟩

theorem validTimeParses {time : Option String} (valid : validTime time = true) : ∃ clock, parseClock time = some clock := by
  obtain ⟨text,rfl,matches_⟩ := (Option.any_eq_true _ _).mp valid
  unfold parseClock
  rw [Option.getD_some]
  split
  · rename_i a b colon c d is
    exact ⟨_,if_pos (is ▸ matches_)⟩
  · rename_i other
    unfold timePattern at matches_
    split at matches_
    · rename_i a b c d is
      exact absurd is (other a b ':' c d)
    · cases matches_

end Clocks

section Sources
variable {z : Zone} {a b : Int} {source : PickupStoreHoursSource} {v : PickupStoreEligibility}

theorem closingVerdictSource (kept : Bool) (date time : Option String) : (closingVerdict kept source date time).hoursSource = source := by
  cases kept <;> rfl

theorem explicitSource {period : GoogleOpeningPeriod} (told : explicitVerdict a b source period = some v) : v.hoursSource = source := by
  simp only [explicitVerdict,bind,Option.bind_eq_some_iff] at told
  obtain ⟨open_,_,openDate,_,openPseudo,_,told⟩ := told
  cases ends : period.close with
  | none =>
    simp only [ends] at told
    split at told <;> cases told
    rfl
  | some close =>
    simp only [ends,Option.bind_eq_some_iff] at told
    obtain ⟨closePseudo,_,told⟩ := told
    generalize (if closePseudo ≤ openPseudo then closePseudo + dayInMs else closePseudo) = closing at told
    split at told
    · cases told
      exact closingVerdictSource _ _ _
    · cases told

theorem weeklySource {period : GoogleOpeningPeriod} (told : weeklyVerdict a b source period = some v) : v.hoursSource = source := by
  simp only [weeklyVerdict,bind,Option.bind_eq_some_iff] at told
  obtain ⟨open_,_,opens,_,told⟩ := told
  cases ends : period.close with
  | none =>
    simp only [ends] at told
    generalize (if a < opens then a + minutesPerWeek else a) = adjusted at told
    split at told <;> cases told
    rfl
  | some close =>
    simp only [ends,Option.bind_eq_some_iff] at told
    obtain ⟨closes,_,told⟩ := told
    generalize (if closes ≤ opens then closes + minutesPerWeek else closes) = closing at told
    obtain ⟨offset,_,told⟩ := List.exists_of_findSome?_eq_some told
    split at told
    · cases told
      exact closingVerdictSource _ _ _
    · cases told

theorem firstSource {α : Type} {f : α → Option PickupStoreEligibility} {xs : List α} {closed : PickupStoreEligibility}
    (each : ∀ x v, f x = some v → v.hoursSource = source) (shut : closed.hoursSource = source) :
    ((xs.findSome? f).getD closed).hoursSource = source := by
  cases told : xs.findSome? f with
  | none => exact shut
  | some v =>
    obtain ⟨x,_,is⟩ := List.exists_of_findSome?_eq_some told
    exact each x v is

theorem googleSource {hours : Option GoogleOpeningHours} (told : evaluateGoogleHours z a b hours source = some v) : v.hoursSource = source := by
  obtain ⟨hours,_,rfl⟩ := Option.map_eq_some_iff.mp told
  split
  · rfl
  · rfl
  · simp only [evaluateExplicitDatePeriods]
    split
    · exact firstSource (fun _ _ => weeklySource) rfl
    · exact firstSource (fun _ _ => explicitSource) rfl

theorem notManual {store : PickupStoreCandidate} (none_ : store.manualHoursOverride.find? (·.date = some (dateKey (getLocalDateParts z a))) = none) :
    (evaluatePickupStoreEligibility z store a).hoursSource ≠ .manual := by
  unfold evaluatePickupStoreEligibility
  split
  · simp only [inManualOverride,none_,Option.map_none,Option.none_or]
    cases current : evaluateGoogleHours z a (a + pickupStoreClosingBufferMs) store.currentOpeningHours .current with
    | some v =>
      rw [Option.some_or,Option.getD_some,googleSource current]
      nofun
    | none =>
      cases regular : evaluateGoogleHours z a (a + pickupStoreClosingBufferMs) store.regularOpeningHours .regular with
      | some v =>
        rw [Option.none_or,Option.getD_some,googleSource regular]
        nofun
      | none => nofun
  · nofun

theorem manualVerdictSource {date : String} {arrival buffered : LocalDateParts} {opens closes : Clock} :
    (manualVerdict date arrival buffered opens closes).hoursSource = .manual ∧
      (manualVerdict date arrival buffered opens closes).closingTime = some (formatClock closes.hour closes.minute) := by
  simp only [manualVerdict]
  generalize utc arrival.year arrival.month arrival.day opens.hour opens.minute = first
  generalize utc arrival.year arrival.month arrival.day closes.hour closes.minute = last
  generalize (if last ≤ first then last + dayInMs else last) = closing
  generalize (if localPseudoMs buffered < localPseudoMs arrival then localPseudoMs buffered + dayInMs else localPseudoMs buffered) = later
  split
  · exact ⟨rfl,rfl⟩
  split
  · exact ⟨rfl,rfl⟩
  · exact ⟨rfl,rfl⟩

end Sources

section Night
variable (z : Zone) {store : PickupStoreCandidate} {a : Int}

def clockMinutes (clock : Clock) : Int := clock.hour*60 + clock.minute

/-- The store is eligible by the override that closes at `closes`. -/
def FollowsOverride (store : PickupStoreCandidate) (arrivalAt : Int) (closes : Clock) : Prop :=
  (evaluatePickupStoreEligibility z store arrivalAt).eligible = true ∧
    (evaluatePickupStoreEligibility z store arrivalAt).hoursSource = .manual ∧
      (evaluatePickupStoreEligibility z store arrivalAt).closingTime = some (formatClock closes.hour closes.minute)

/-- An override lets an arrival of its own date in that leaves it the buffer. -/
def LetsIn (override : ManualHoursOverrideEntry) (arrivalAt : Int) : Prop :=
  ∃ closing, overrideClosing z arrivalAt override = some closing ∧
    closing.counted (z.minute arrivalAt) (z.minute (arrivalAt + 180000)) ≤ closing.minute

/-- A store keeps overrides that the form has accepted; the arrival is between the opening time of an overnight one and
its closing time on the next day less the buffer, as the local clock shows them. -/
structure NightShift (value : Json ν) (store : PickupStoreCandidate) (o : NormalizedOverride) (opens closes : Clock) (arrivalAt : Int) : Prop where
  accepted : ∃ os, parseManualHoursOverride localeCompare value = .ok (some os) ∧ o ∈ os ∧ store.manualHoursOverride = os.map (·.entry)
  isOpen : o.isClosed = false
  opensAt : parseClock o.openTime = some opens
  closesAt : parseClock o.closeTime = some closes
  overnight : clockMinutes closes ≤ clockMinutes opens
  fromOpening : 60000*(o.day*1440 + clockMinutes opens) ≤ z.clock arrivalAt
  untilClosing : z.clock arrivalAt + 180000 ≤ 60000*((o.day + 1)*1440 + clockMinutes closes)

/-- The clock three minutes later, a day on if it is set back until then, shows no more than `closing`. -/
def BufferBefore (arrivalAt closing : Int) : Prop :=
  (StoreClosing.ofOverride closing).counted (z.minute arrivalAt) (z.minute (arrivalAt + 180000)) ≤ closing

/-- The arrival has the date of the override, or the next date's own override lets it in until the same time. -/
def OnItsDate (store : PickupStoreCandidate) (o : NormalizedOverride) (closes : Clock) (arrivalAt : Int) : Prop :=
  store.operational = true ∧ ((z.minute arrivalAt/1440 = o.day ∧ BufferBefore z arrivalAt ((o.day + 1)*1440 + clockMinutes closes)) ∨
    (z.minute arrivalAt/1440 = o.day + 1 ∧ ∃ next ∈ store.manualHoursOverride,
      next.date = some (dayText (o.day + 1)) ∧ parseClock next.closeTime = some closes ∧ LetsIn z next arrivalAt))

variable {z}

theorem foundFollows {entry : ManualHoursOverrideEntry} {time : Option String} {closes : Clock} (operates : store.operational = true)
    (read : parseClock time = some closes)
    (found : store.manualHoursOverride.find? (·.date = some (dateKey (getLocalDateParts z a))) = some entry) :
    FollowsOverride z store a closes ↔ parseClock entry.closeTime = some closes ∧ LetsIn z entry a := by
  have judged := (storeJudged (z := z) (a := a) store).kept
  have source : (evaluatePickupStoreEligibility z store a).hoursSource = .manual ∧
      ((evaluatePickupStoreEligibility z store a).eligible = true → ∃ clock, parseClock entry.closeTime = some clock ∧
        (evaluatePickupStoreEligibility z store a).closingTime = some (formatClock clock.hour clock.minute)) := by
    simp only [evaluatePickupStoreEligibility,if_pos operates,inManualOverride,found,Option.map_some,Option.some_or,Option.getD_some]
    split
    · exact ⟨rfl,fun eligible => by cases eligible⟩
    · split
      · rename_i closing _ is
        exact ⟨manualVerdictSource.1,fun _ => ⟨closing,is,manualVerdictSource.2⟩⟩
      · exact ⟨rfl,fun eligible => by cases eligible⟩
  have closing : storeClosing z store a = overrideClosing z a entry := by
    simp only [storeClosing,if_pos operates,found]
  rw [closing] at judged
  constructor
  · rintro ⟨open_,-,shown⟩
    obtain ⟨clock,is,shown'⟩ := source.2 open_
    rw [formatClockInjective read is (Option.some.inj (shown.symm.trans shown'))]
    exact ⟨is,judged.mp ⟨open_,by rw [shown]; exact Option.some_ne_none _⟩⟩
  · rintro ⟨is,letsIn⟩
    obtain ⟨open_,_⟩ := judged.mpr letsIn
    obtain ⟨clock,is',shown⟩ := source.2 open_
    cases is.symm.trans is'
    exact ⟨open_,source.1,shown⟩

theorem foundByDate {os : List NormalizedOverride} {o : NormalizedOverride} {date : String} (apart : os.Pairwise fun a b => a.date ≠ b.date)
    (mem : o ∈ os) (is : o.date = date) : (os.map (·.entry)).find? (·.date = some date) = some o.entry := by
  induction os with
  | nil => cases mem
  | cons first os ih =>
    obtain ⟨others,rest⟩ := List.pairwise_cons.mp apart
    rcases List.mem_cons.mp mem with rfl | mem
    · simp [NormalizedOverride.entry,is]
    · have differ : first.date ≠ date := is ▸ others o mem
      rw [List.map_cons,List.find?_cons_of_neg (by simpa [NormalizedOverride.entry] using differ)]
      exact ih rest mem

variable {localeCompare} {value : Json ν} {o : NormalizedOverride} {opens closes : Clock}

theorem NightShift.date (h : NightShift localeCompare z value store o opens closes a) : dayText o.day = o.date := by
  obtain ⟨os,ok,mem,_⟩ := h.accepted
  exact ((acceptedOverrides localeCompare ok).1 o mem).dayText

theorem NightShift.onOrAfter (h : NightShift localeCompare z value store o opens closes a) :
    z.minute a/1440 = o.day ∨ z.minute a/1440 = o.day + 1 := by
  have shows := z.clockMinute a
  have low : 0 ≤ a % 60000 := Int.emod_nonneg _ (by decide)
  have high : a % 60000 < 60000 := Int.emod_lt_of_pos _ (by decide)
  have from_ := h.fromOpening
  have until_ := h.untilClosing
  have opening := clockBounds h.opensAt
  have closing := clockBounds h.closesAt
  rw [shows] at from_ until_
  unfold clockMinutes at *
  omega

/-- On its own date an overnight override is open from its opening time on. -/
theorem NightShift.letsIn (h : NightShift localeCompare z value store o opens closes a) (today : z.minute a/1440 = o.day) :
    LetsIn z o.entry a ↔ BufferBefore z a ((o.day + 1)*1440 + clockMinutes closes) := by
  have shows := z.clockMinute a
  have high : a % 60000 < 60000 := Int.emod_lt_of_pos _ (by decide)
  have from_ := h.fromOpening
  have until_ := h.untilClosing
  have night := h.overnight
  rw [shows] at from_ until_
  have closing : overrideClosing z a o.entry = some (.ofOverride ((o.day + 1)*1440 + clockMinutes closes)) := by
    have notClosed : o.entry.isClosed ≠ some true := by simp [NormalizedOverride.entry,h.isOpen]
    have opensAt : parseClock o.entry.openTime = some opens := h.opensAt
    have closesAt : parseClock o.entry.closeTime = some closes := h.closesAt
    simp only [overrideClosing,if_neg notClosed,opensAt,closesAt,today]
    unfold clockMinutes at *
    have low : 0 ≤ a % 60000 := Int.emod_nonneg _ (by decide)
    rw [if_pos (by omega : o.day*1440 + closes.hour*60 + closes.minute ≤ o.day*1440 + opens.hour*60 + opens.minute),
      if_pos ⟨by omega,by omega⟩]
    congr 2
    omega
  simp only [LetsIn,closing,Option.some.injEq,exists_eq_left']
  rfl

/-- An overnight override is followed on its own date, and after midnight only where the next date's override happens to say the same. -/
theorem overnightOnItsDate (h : NightShift localeCompare z value store o opens closes a) :
    FollowsOverride z store a closes ↔ OnItsDate z store o closes a := by
  obtain ⟨os,ok,mem,kept⟩ := h.accepted
  have apart := (acceptedOverrides localeCompare ok).2
  by_cases operates : store.operational = true
  · rcases h.onOrAfter with today | tomorrow
    · have key : dateKey (getLocalDateParts z a) = o.date := by
        rw [← h.date,← today]
        rfl
      have found := foundByDate apart mem key.symm
      rw [← kept] at found
      rw [foundFollows operates h.closesAt found,h.letsIn today]
      refine ⟨fun ⟨_,before⟩ => ⟨operates,.inl ⟨today,before⟩⟩,fun ⟨_,now⟩ => ⟨h.closesAt,?_⟩⟩
      rcases now with ⟨_,before⟩ | ⟨late,_⟩
      · exact before
      · omega
    · have key : dateKey (getLocalDateParts z a) = dayText (o.day + 1) := by
        rw [← tomorrow]
        rfl
      by_cases own : ∃ next ∈ os, next.date = dayText (o.day + 1)
      · obtain ⟨next,among,is⟩ := own
        have found := foundByDate apart among (is.trans key.symm)
        rw [← kept] at found
        rw [foundFollows operates h.closesAt found]
        have entry : next.entry ∈ store.manualHoursOverride := kept ▸ List.mem_map_of_mem among
        refine ⟨fun ⟨same,letsIn⟩ => ⟨operates,.inr ⟨tomorrow,next.entry,entry,congrArg some is,same,letsIn⟩⟩,fun ⟨_,now⟩ => ?_⟩
        rcases now with ⟨early,_⟩ | ⟨_,other,others,date,same,letsIn⟩
        · omega
        · obtain ⟨other,among',rfl⟩ := List.mem_map.mp (kept ▸ others)
          have found' := foundByDate apart among' ((Option.some.inj date).trans key.symm)
          rw [← kept,found] at found'
          rw [Option.some.inj found']
          exact ⟨same,letsIn⟩
      · have none_ : store.manualHoursOverride.find? (·.date = some (dateKey (getLocalDateParts z a))) = none := by
          rw [kept,List.find?_eq_none]
          intro entry among is
          obtain ⟨next,within,rfl⟩ := List.mem_map.mp among
          exact own ⟨next,within,(Option.some.inj (by simpa [NormalizedOverride.entry] using is)).trans key⟩
        refine ⟨fun ⟨_,source,_⟩ => absurd source (notManual none_),fun ⟨_,now⟩ => ?_⟩
        rcases now with ⟨early,_⟩ | ⟨_,other,others,date,_⟩
        · omega
        · obtain ⟨next,among,rfl⟩ := List.mem_map.mp (kept ▸ others)
          exact absurd ⟨next,among,Option.some.inj date⟩ own
  · refine ⟨fun ⟨open_,_⟩ => ?_,fun ⟨operates',_⟩ => absurd operates' operates⟩
    simp [evaluatePickupStoreEligibility,if_neg operates] at open_

/-- Tuesday, September 8, from 18:00 to 02:00, as the form sends it. -/
def tuesdayNight : Json Nat :=
  .array [.object [("date",.text "2026-09-08"),("isClosed",.bool false),("openTime",.text "18:00"),("closeTime",.text "02:00")]]

def tuesdayNightOverride : NormalizedOverride := ⟨"2026-09-08",false,some "18:00",some "02:00",none⟩

def openTuesdayNight : PickupStoreCandidate := { municipalStreet with manualHoursOverride := [tuesdayNightOverride.entry] }

theorem tuesdayNightShift {at_ : Int} (from_ : 60000*29814840 ≤ (Zone.fixed (-240)).clock at_)
    (until_ : (Zone.fixed (-240)).clock at_ + 180000 ≤ 60000*29815320) :
    NightShift (fun _ _ => .eq) (Zone.fixed (-240)) tuesdayNight openTuesdayNight tuesdayNightOverride ⟨18,0⟩ ⟨2,0⟩ at_ where
  accepted := ⟨[tuesdayNightOverride],by decide +kernel,by decide,rfl⟩
  isOpen := rfl
  opensAt := by decide +kernel
  closesAt := by decide +kernel
  overnight := by decide
  fromOpening := by
    have : tuesdayNightOverride.day*1440 + clockMinutes ⟨18,0⟩ = 29814840 := by decide +kernel
    rwa [this]
  untilClosing := by
    have : (tuesdayNightOverride.day + 1)*1440 + clockMinutes ⟨2,0⟩ = 29815320 := by decide +kernel
    rwa [this]

theorem overnightOnItsDateAtEleven : FollowsOverride (Zone.fixed (-240)) openTuesdayNight 1788922800000 ⟨2,0⟩ ↔
    OnItsDate (Zone.fixed (-240)) openTuesdayNight tuesdayNightOverride ⟨2,0⟩ 1788922800000 :=
  overnightOnItsDate (tuesdayNightShift (by decide) (by decide))

/-- At half past midnight the override is over and the regular hours of Tuesday are too. -/
theorem overnightEndsAtMidnight : ¬∀ (localeCompare : String → String → Ordering) (z : Zone) (value : Json Nat) (store : PickupStoreCandidate)
    (o : NormalizedOverride) (opens closes : Clock) (arrivalAt : Int),
    NightShift localeCompare z value store o opens closes arrivalAt → FollowsOverride z store arrivalAt closes := by
  intro always
  have follows := always _ _ _ _ _ _ _ 1788928200000 (tuesdayNightShift (by decide) (by decide))
  have closed : (evaluatePickupStoreEligibility (Zone.fixed (-240)) openTuesdayNight 1788928200000).eligible = false := by decide +kernel
  exact absurd (closed.symm.trans follows.1) nofun

end Night
end Routing
