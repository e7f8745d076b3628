import Mathlib.Algebra.Order.Ring.Int
import Mathlib.Order.Monotone.Basic
import SpeedySweeties.Bnd.Schedule

/-! The schedule of the opening hours changes when it says and not before. All that this takes of
the time zone is that its days follow each other, each from midnight to midnight, and that
the minutes of a day fall into the day. -/
namespace SpeedySweeties.Bnd

/-- The days of the zone, as `bndLocalDate` and `bndLocalInstant` have them. -/
structure LocalDays (wall : Int → Int) : Prop where
  day : ∀ time date, bndLocalDate wall time = date ↔ bndLocalInstant wall date 0 ≤ time ∧ time < bndLocalInstant wall (date + 1) 0
  minutes : ∀ date minute, 0 ≤ minute → minute ≤ 1440 →
    bndLocalInstant wall date 0 ≤ bndLocalInstant wall date minute ∧ bndLocalInstant wall date minute ≤ bndLocalInstant wall (date + 1) 0

theorem midnight (wall : Int → Int) (date : Int) : bndLocalInstant wall date 1440 = bndLocalInstant wall (date + 1) 0 := by
  have target : date*Calendar.dayMs + 1440*60000 = (date + 1)*Calendar.dayMs + 0*60000 := by
    rw [Calendar.dayMs]
    omega
  rw [bndLocalInstant,bndLocalInstant,target]

theorem LocalDays.ofMonotone {wall : Int → Int}
    (monotone : ∀ date minute date' minute', date*1440 + minute ≤ date'*1440 + minute' →
      bndLocalInstant wall date minute ≤ bndLocalInstant wall date' minute')
    (day : ∀ time date, bndLocalDate wall time = date ↔ bndLocalInstant wall date 0 ≤ time ∧ time < bndLocalInstant wall (date + 1) 0) :
    LocalDays wall where
  day := day
  minutes date minute low high := ⟨monotone date 0 date minute (by omega),monotone date minute (date + 1) 0 (by omega)⟩

theorem LocalDays.fixedOffset (offset : Int) : LocalDays fun time => time + offset where
  day time date := by
    simp only [bndLocalDate,bndLocalInstant,Calendar.dayMs]
    omega
  minutes date minute low high := by
    simp only [bndLocalInstant,Calendar.dayMs]
    omega

/-- A zone whose clocks change once, by at most two hours and between two o'clock and noon. -/
theorem LocalDays.clockChange (early late change : Int) (near : late ≤ early + 7200000 ∧ early ≤ late + 7200000)
    (behind : -43200000 ≤ early ∧ early ≤ 0 ∧ -43200000 ≤ late ∧ late ≤ 0)
    (morning : 7200000 ≤ (change + early) % Calendar.dayMs ∧ (change + early) % Calendar.dayMs ≤ 43200000) :
    LocalDays fun time => if time < change then time + early else time + late where
  day time date := by
    simp only [bndLocalDate,bndLocalInstant,Calendar.dayMs] at *
    split_ifs <;> omega
  minutes date minute low high := by
    simp only [bndLocalInstant,Calendar.dayMs] at *
    split_ifs <;> omega

section Windows
variable {wall : Int → Int} {hours : BndHours} {date start end_ : Int}

theorem windowCases (days : LocalDays wall) (valid : validHours wall hours = true) (date : Int) :
    ((bndDayWindow wall date hours).startAt = none ∧ (bndDayWindow wall date hours).endAt = none) ∨
    ∃ start end_, (bndDayWindow wall date hours).startAt = some start ∧ (bndDayWindow wall date hours).endAt = some end_ ∧
      bndLocalInstant wall date 0 ≤ start ∧ start ≤ bndLocalInstant wall (date + 1) 0 ∧ end_ ≤ bndLocalInstant wall (date + 1) 0 := by
  simp only [validHours,Bool.and_eq_true,List.all_eq_true] at valid
  obtain ⟨⟨⟨-,rules⟩,-⟩,daily⟩ := valid
  unfold bndDayWindow
  split
  · rename_i today is
    obtain ⟨isToday,here⟩ := Option.filter_eq_some_iff.mp is
    have here : today.date = date := of_decide_eq_true here
    rw [isToday,Option.all_some,validToday] at daily
    split at daily
    · rename_i noStart noEnd
      exact .inl ⟨noStart,noEnd⟩
    · rename_i start end_ isStart isEnd
      simp only [Bool.and_eq_true,decide_eq_true_eq] at daily
      obtain ⟨low,high⟩ := (days.day start date).mp (daily.1.2.trans here)
      exact .inr ⟨start,end_,isStart,isEnd,low,high.le,here ▸ daily.2⟩
    · cases daily
  · split
    · rename_i rule found
      have valid := rules rule (List.mem_of_find?_eq_some found)
      rw [validRule,Bool.and_eq_true] at valid
      dsimp only
      split at valid
      · rename_i noStart noEnd
        exact .inl ⟨by rw [noStart]; rfl,by rw [noEnd]; rfl⟩
      · rename_i start end_ isStart isEnd
        obtain ⟨-,valid⟩ := valid
        simp only [Bool.and_eq_true,decide_eq_true_eq] at valid
        have first := days.minutes date start (by omega) (by omega)
        have last := days.minutes date end_ (by omega) (by omega)
        exact .inr ⟨_,_,by rw [isStart]; rfl,by rw [isEnd]; rfl,first.1,first.2,last.2⟩
      · simp at valid
    · exact .inl ⟨rfl,rfl⟩

end Windows

/-- Within the window of its day. -/
def OpenAt (wall : Int → Int) (hours : BndHours) (time : Int) : Prop :=
  ∃ start end_, (bndDayWindow wall (bndLocalDate wall time) hours).startAt = some start ∧
    (bndDayWindow wall (bndLocalDate wall time) hours).endAt = some end_ ∧ start ≤ time ∧ time < end_

def upcoming (wall : Int → Int) (hours : BndHours) (date : Int) : Int :=
  ((List.range 7).findSome? fun n : Nat => (bndDayWindow wall (date + n + 1) hours).startAt).getD (bndLocalInstant wall (date + 1) 0)

section Schedule
variable {wall : Int → Int} {hours : BndHours}

theorem scheduleIs (wall : Int → Int) (hours : BndHours) (now : Int) : getBndSchedule wall hours now =
    match (bndDayWindow wall (bndLocalDate wall now) hours).startAt,(bndDayWindow wall (bndLocalDate wall now) hours).endAt with
    | some start,some end_ =>
      if now < start then ⟨false,start⟩ else if now < end_ then ⟨true,end_⟩ else ⟨false,upcoming wall hours (bndLocalDate wall now)⟩
    | _,_ => ⟨false,upcoming wall hours (bndLocalDate wall now)⟩ := by
  unfold getBndSchedule upcoming
  dsimp only
  cases (List.range 7).findSome? fun n : Nat => (bndDayWindow wall (bndLocalDate wall now + n + 1) hours).startAt <;> rfl

theorem scheduleCases (wall : Int → Int) (hours : BndHours) (now : Int) :
    (∃ start, (bndDayWindow wall (bndLocalDate wall now) hours).startAt = some start ∧ now < start ∧
      getBndSchedule wall hours now = ⟨false,start⟩ ∧ ¬OpenAt wall hours now) ∨
    (∃ end_, (bndDayWindow wall (bndLocalDate wall now) hours).endAt = some end_ ∧ now < end_ ∧
      getBndSchedule wall hours now = ⟨true,end_⟩ ∧ OpenAt wall hours now) ∨
    ((∀ start end_, (bndDayWindow wall (bndLocalDate wall now) hours).startAt = some start →
      (bndDayWindow wall (bndLocalDate wall now) hours).endAt = some end_ → start ≤ now ∧ end_ ≤ now) ∧
      getBndSchedule wall hours now = ⟨false,upcoming wall hours (bndLocalDate wall now)⟩ ∧ ¬OpenAt wall hours now) := by
  rw [scheduleIs]
  unfold OpenAt
  cases isStart : (bndDayWindow wall (bndLocalDate wall now) hours).startAt with
  | none => exact .inr (.inr ⟨by simp,rfl,by simp⟩)
  | some start =>
    cases isEnd : (bndDayWindow wall (bndLocalDate wall now) hours).endAt with
    | none => exact .inr (.inr ⟨by simp,rfl,by simp⟩)
    | some end_ =>
      dsimp only
      by_cases before : now < start
      · exact .inl ⟨start,rfl,before,if_pos before,by simp; omega⟩
      · by_cases inside : now < end_
        · exact .inr (.inl ⟨end_,rfl,inside,by rw [if_neg before,if_pos inside],start,end_,rfl,rfl,by omega,inside⟩)
        · exact .inr (.inr ⟨by simp; omega,by rw [if_neg before,if_neg inside],by simp; omega⟩)

theorem openIff (now : Int) : (getBndSchedule wall hours now).open_ = true ↔ OpenAt wall hours now := by
  rcases scheduleCases wall hours now with ⟨_,-,-,is,closed⟩ | ⟨_,-,-,is,opened⟩ | ⟨-,is,closed⟩
  · exact iff_of_false (by simp [is]) closed
  · exact iff_of_true (by simp [is]) opened
  · exact iff_of_false (by simp [is]) closed

/-- The next window starts after all the days in between, which have none. -/
theorem upcomingCases (wall : Int → Int) (hours : BndHours) (date : Int) :
    (∃ n : Nat, n < 7 ∧ (bndDayWindow wall (date + n + 1) hours).startAt = some (upcoming wall hours date) ∧
      ∀ k : Nat, k < n → (bndDayWindow wall (date + k + 1) hours).startAt = none) ∨
    ((∀ n : Nat, n < 7 → (bndDayWindow wall (date + n + 1) hours).startAt = none) ∧
      upcoming wall hours date = bndLocalInstant wall (date + 1) 0) := by
  unfold upcoming
  cases found : (List.range 7).findSome? fun n : Nat => (bndDayWindow wall (date + n + 1) hours).startAt with
  | none =>
    right
    exact ⟨fun n few => List.findSome?_eq_none_iff.mp found n (List.mem_range.mpr few),rfl⟩
  | some start =>
    left
    obtain ⟨before,n,after,split,is,nothing⟩ := List.findSome?_eq_some_iff.mp found
    obtain ⟨k,-,rfl,rest⟩ := List.range'_eq_append_iff.mp (List.range_eq_range' ▸ split)
    have here : n = k ∧ k < 7 := by
      cases left : 7 - k with
      | zero => simp [left] at rest
      | succ m =>
        rw [left,List.range'_succ] at rest
        have is := (List.cons.inj rest).1
        omega
    obtain ⟨rfl,few⟩ := here
    exact ⟨n,few,is,fun k earlier => nothing k (List.mem_range'_1.mpr ⟨Nat.zero_le k,by omega⟩)⟩

end Schedule

section Days
variable {wall : Int → Int} {hours : BndHours} (days : LocalDays wall)
include days

theorem localDay (time : Int) : bndLocalInstant wall (bndLocalDate wall time) 0 ≤ time ∧ time < bndLocalInstant wall (bndLocalDate wall time + 1) 0 :=
  (days.day time _).mp rfl

theorem midnightsMono {date date' : Int} (le : date ≤ date') : bndLocalInstant wall date 0 ≤ bndLocalInstant wall date' 0 :=
  monotone_int_of_le_succ (fun date => (days.minutes date 0 le_rfl (by omega)).2) le

theorem sameDay {now time : Int} (later : now ≤ time) (before : time < bndLocalInstant wall (bndLocalDate wall now + 1) 0) :
    bndLocalDate wall time = bndLocalDate wall now :=
  (days.day time _).mpr ⟨(localDay days now).1.trans later,before⟩

theorem upcomingLater (valid : validHours wall hours = true) (now : Int) : now < upcoming wall hours (bndLocalDate wall now) := by
  have before := (localDay days now).2
  rcases upcomingCases wall hours (bndLocalDate wall now) with ⟨n,-,is,-⟩ | ⟨-,is⟩
  · rcases windowCases days valid (bndLocalDate wall now + n + 1) with ⟨nothing,-⟩ | ⟨start,end_,isStart,-,low,-,-⟩
    · exact absurd (nothing.symm.trans is) (by simp)
    · cases Option.some.inj (isStart.symm.trans is)
      exact before.trans_le ((midnightsMono days (by omega)).trans low)
  · rwa [is]

/-- No window has begun before the next one starts, apart from the one of today. -/
theorem upcomingClosed (valid : validHours wall hours = true) {now time : Int} (later : now ≤ time)
    (before : time < upcoming wall hours (bndLocalDate wall now)) (another : bndLocalDate wall time ≠ bndLocalDate wall now) :
    ¬OpenAt wall hours time := by
  rintro ⟨start,end_,isStart,-,begun,-⟩
  have next : bndLocalDate wall now < bndLocalDate wall time := by
    by_contra stays
    have order := midnightsMono days (show bndLocalDate wall time + 1 ≤ bndLocalDate wall now by omega)
    exact absurd ((localDay days time).2.trans_le order) (not_lt.mpr ((localDay days now).1.trans later))
  obtain ⟨k,offset⟩ := Int.eq_ofNat_of_zero_le (show 0 ≤ bndLocalDate wall time - bndLocalDate wall now - 1 by omega)
  have there : bndLocalDate wall time = bndLocalDate wall now + k + 1 := by omega
  rw [there] at isStart
  rcases upcomingCases wall hours (bndLocalDate wall now) with ⟨n,-,is,nothing⟩ | ⟨nothing,is⟩
  · rcases lt_trichotomy k n with earlier | rfl | after
    · exact absurd (isStart.symm.trans (nothing k earlier)) (by simp)
    · cases Option.some.inj (isStart.symm.trans is)
      omega
    · rcases windowCases days valid (bndLocalDate wall now + n + 1) with ⟨none_,-⟩ | ⟨first,_,isFirst,-,-,high,-⟩
      · exact absurd (none_.symm.trans is) (by simp)
      · cases Option.some.inj (isFirst.symm.trans is)
        have order := midnightsMono days (show bndLocalDate wall now + n + 1 + 1 ≤ bndLocalDate wall time by omega)
        have := (localDay days time).1
        omega
  · rw [is] at before
    exact another (sameDay days later before)

end Days

/-- The next change is later, nothing changes until then, and it is an end of a window or else the midnight before a closed week. -/
theorem scheduleExact (wall : Int → Int) (days : LocalDays wall) (hours : BndHours) (valid : validHours wall hours = true) (now : Int) :
    let schedule := getBndSchedule wall hours now
    now < schedule.nextChangeAt ∧
      (∀ time, now ≤ time → time < schedule.nextChangeAt → (getBndSchedule wall hours time).open_ = schedule.open_) ∧
      ((∃ date start end_, (bndDayWindow wall date hours).startAt = some start ∧ (bndDayWindow wall date hours).endAt = some end_ ∧
          (schedule.nextChangeAt = start ∨ schedule.nextChangeAt = end_)) ∨
        ((∀ n : Nat, 1 ≤ n → n ≤ 7 → (bndDayWindow wall (bndLocalDate wall now + n) hours).startAt = none) ∧
          schedule.nextChangeAt = bndLocalInstant wall (bndLocalDate wall now + 1) 0)) := by
  intro schedule
  have flag : ∀ time, (OpenAt wall hours time ↔ OpenAt wall hours now) → (getBndSchedule wall hours time).open_ = schedule.open_ :=
    fun time same => Bool.eq_iff_iff.mpr ((openIff time).trans (same.trans (openIff now).symm))
  have window : ∀ start end_ time, bndLocalDate wall time = bndLocalDate wall now →
      (bndDayWindow wall (bndLocalDate wall now) hours).startAt = some start →
      (bndDayWindow wall (bndLocalDate wall now) hours).endAt = some end_ → (OpenAt wall hours time ↔ start ≤ time ∧ time < end_) := by
    intro start end_ time today isStart isEnd
    simp [OpenAt,today,isStart,isEnd]
  have both := windowCases days valid (bndLocalDate wall now)
  rcases scheduleCases wall hours now with ⟨start,isStart,before,is,closed⟩ | ⟨end_,isEnd,before,is,opened⟩ | ⟨past,is,closed⟩
  · obtain ⟨end_,isEnd,high⟩ : ∃ end_, (bndDayWindow wall (bndLocalDate wall now) hours).endAt = some end_ ∧
        start ≤ bndLocalInstant wall (bndLocalDate wall now + 1) 0 := by
      rcases both with ⟨nothing,-⟩ | ⟨first,last,isFirst,isLast,-,high,-⟩
      · exact absurd (nothing.symm.trans isStart) (by simp)
      · exact ⟨last,isLast,Option.some.inj (isFirst.symm.trans isStart) ▸ high⟩
    have next : schedule.nextChangeAt = start := congrArg BndSchedule.nextChangeAt is
    refine ⟨next ▸ before,fun time later until_ => flag time (iff_of_false ?_ closed),.inl ⟨_,start,end_,isStart,isEnd,.inl next⟩⟩
    rw [next] at until_
    rw [window start end_ time (sameDay days later (until_.trans_le high)) isStart isEnd]
    omega
  · obtain ⟨start,isStart,high⟩ : ∃ start, (bndDayWindow wall (bndLocalDate wall now) hours).startAt = some start ∧
        end_ ≤ bndLocalInstant wall (bndLocalDate wall now + 1) 0 := by
      rcases both with ⟨-,nothing⟩ | ⟨first,last,isFirst,isLast,-,-,high⟩
      · exact absurd (nothing.symm.trans isEnd) (by simp)
      · exact ⟨first,isFirst,Option.some.inj (isLast.symm.trans isEnd) ▸ high⟩
    have next : schedule.nextChangeAt = end_ := congrArg BndSchedule.nextChangeAt is
    have begun := ((window start end_ now rfl isStart isEnd).mp opened).1
    refine ⟨next ▸ before,fun time later until_ => flag time (iff_of_true ?_ opened),.inl ⟨_,start,end_,isStart,isEnd,.inr next⟩⟩
    rw [next] at until_
    rw [window start end_ time (sameDay days later (until_.trans_le high)) isStart isEnd]
    omega
  · have next : schedule.nextChangeAt = upcoming wall hours (bndLocalDate wall now) := congrArg BndSchedule.nextChangeAt is
    refine ⟨next ▸ upcomingLater days valid now,fun time later until_ => flag time (iff_of_false ?_ closed),?_⟩
    · rw [next] at until_
      by_cases today : bndLocalDate wall time = bndLocalDate wall now
      · rintro ⟨start,end_,isStart,isEnd,-,open_⟩
        rw [today] at isStart isEnd
        have := (past start end_ isStart isEnd).2
        omega
      · exact upcomingClosed days valid later until_ today
    · rw [next]
      rcases upcomingCases wall hours (bndLocalDate wall now) with ⟨n,-,isStart,-⟩ | ⟨nothing,midnight⟩
      · rcases windowCases days valid (bndLocalDate wall now + n + 1) with ⟨none_,-⟩ | ⟨start,end_,isFirst,isEnd,-,-,-⟩
        · exact absurd (none_.symm.trans isStart) (by simp)
        · exact .inl ⟨_,_,end_,isStart,isEnd,.inl rfl⟩
      · refine .inr ⟨fun n low high => ?_,midnight⟩
        have earlier := nothing (n - 1) (by omega)
        rwa [show bndLocalDate wall now + (n - 1 : Nat) + 1 = bndLocalDate wall now + n by omega] at earlier

/-- Five hours behind UTC, on the evening before a Sunday. -/
theorem scheduleExactSunday :
    let wall := fun time => time + -18000000
    let now := 1772334000000
    getBndSchedule wall fallbackHours now = ⟨false,1772382600000⟩ ∧
      ∀ time, now ≤ time → time < 1772382600000 → (getBndSchedule wall fallbackHours time).open_ = false := by
  have is : getBndSchedule (fun time => time + -18000000) fallbackHours 1772334000000 = ⟨false,1772382600000⟩ := by decide
  have exactly := (scheduleExact (fun time => time + -18000000) (.fixedOffset _) fallbackHours (by decide) 1772334000000).2.1
  rw [is] at exactly
  exact ⟨is,exactly⟩

end SpeedySweeties.Bnd
