import SpeedySweeties.Library.RangeMeasure
import SpeedySweeties.Order.EditPause

/-! The time that edit pauses take off an order's wait, once as the services compute it from dates
and once as the database function does from rows. Both are the measure of the same union. -/
namespace SpeedySweeties.DispatchTiming
open MeasureTheory RangeMeasure

/-- A date is its milliseconds, an invalid one has none. -/
abbrev Date := Option Int

structure DispatchEditPause where
  startedAt : Date
  expiresAt : Date
  endedAt : Option Date
  deriving DecidableEq, Repr

/-- `Math.max` and `Math.min` of something that is not a number are not numbers. -/
def mathMax (a b : Option Int) : Option Int := do some (max (← a) (← b))
def mathMin (a b : Option Int) : Option Int := do some (min (← a) (← b))

/-- The pause as a range within the limits, if it has two numbers and the first is the smaller one. -/
def DispatchEditPause.range (pause : DispatchEditPause) (lower upper : Int) : Option Range := do
  let a ← mathMax (some lower) pause.startedAt
  let b ← mathMin (mathMin (some upper) pause.expiresAt) (pause.endedAt.getD (some upper))
  if a < b then some (a,b) else none

def editPauseMilliseconds (pauses : List DispatchEditPause) (start end_ : Date) : Int :=
  match start,end_ with
  | some lower,some upper =>
    if upper ≤ lower then 0
    else
      let ranges := (pauses.filterMap (·.range lower upper)).insertionSort fun r s => r.1 ≤ s.1
      (ranges.foldl (fun s r => (s.1 + max 0 (r.2 - max s.2 r.1),max s.2 r.2)) (0,lower)).1
  | _,_ => 0

def dispatchWaitingMilliseconds (start end_ : Date) (pauses : List DispatchEditPause) : Option Int := do
  some (max 0 ((← end_) - (← start) - editPauseMilliseconds pauses start end_))

/-- A row of the table; `TIMESTAMP(3)` counts milliseconds. Nothing below needs `OrderEditPause_valid_interval` of it. -/
structure OrderEditPause where
  orderId : OrderId
  startedAt : Int
  expiresAt : Int
  endedAt : Option Int
  deriving DecidableEq, Repr

def OrderEditPause.selected (p : OrderEditPause) : DispatchEditPause := ⟨some p.startedAt,some p.expiresAt,p.endedAt.map some⟩

/-- How the database orders ranges that are not empty. -/
def rangeLe (r s : Range) : Prop := r.1 < s.1 ∨ (r.1 = s.1 ∧ r.2 ≤ s.2)

instance : DecidableRel rangeLe := fun _ _ => inferInstanceAs (Decidable (_ ∨ _))

/-- `range_agg` leaves empty ranges out, sorts the others and merges them. -/
def rangeAgg (ranges : List Range) : List Range := merged ((ranges.filter fun r => r.1 < r.2).insertionSort rangeLe)

def OrderEditPause.tsrange (p : OrderEditPause) (startAt endAt : Int) : Range :=
  (max p.startedAt startAt,max (max p.startedAt startAt) (min (min endAt p.expiresAt) (p.endedAt.getD endAt)))

def dispatchEditPauseDuration (table : List OrderEditPause) (orderId : OrderId) (startAt endAt : Int) : Int :=
  total (rangeAgg ((table.filter fun p => p.orderId = orderId ∧ p.startedAt < endAt ∧ startAt < p.expiresAt).map (·.tsrange startAt endAt)))

/-- The effective interval of a pause: from its start until it expires or is ended. -/
def DispatchEditPause.InEffect (pause : DispatchEditPause) (x : ℝ) : Prop := ∃ startedAt expiresAt : Int,
  pause.startedAt = some startedAt ∧ pause.expiresAt = some expiresAt ∧ startedAt ≤ x ∧ x < expiresAt ∧
    ∀ date, pause.endedAt = some date → ∃ endedAt : Int, date = some endedAt ∧ x < endedAt

section Ranges
variable {lower upper : Int} {pause : DispatchEditPause} {r : Range}

theorem rangeSource : pause.range lower upper = some r ↔ ∃ startedAt expiresAt : Int,
    pause.startedAt = some startedAt ∧ pause.expiresAt = some expiresAt ∧
      ∃ end_ : Int, pause.endedAt.getD (some upper) = some end_ ∧
        r = (max lower startedAt,min (min upper expiresAt) end_) ∧ r.1 < r.2 := by
  obtain ⟨startedAt,expiresAt,endedAt⟩ := pause
  cases startedAt with
  | none => simp [DispatchEditPause.range,mathMax]
  | some startedAt =>
    cases expiresAt with
    | none => simp [DispatchEditPause.range,mathMax,mathMin]
    | some expiresAt =>
      cases is : endedAt.getD (some upper) with
      | none => simp [DispatchEditPause.range,mathMax,mathMin,is]
      | some end_ =>
        simp only [DispatchEditPause.range,mathMax,mathMin,is,Option.bind_eq_bind,Option.bind_some]
        constructor
        · intro given
          split at given
          · cases given
            rename_i proper
            exact ⟨_,_,rfl,rfl,_,rfl,rfl,proper⟩
          · cases given
        · rintro ⟨_,_,⟨⟩,⟨⟩,_,⟨⟩,rfl,proper⟩
          exact if_pos proper

theorem rangeInEffect {x : ℝ} (inside : (lower : ℝ) ≤ x ∧ x < upper) :
    (∃ r, pause.range lower upper = some r ∧ (r.1 : ℝ) ≤ x ∧ x < r.2) ↔ pause.InEffect x := by
  constructor
  · rintro ⟨r,is,start,end_⟩
    obtain ⟨startedAt,expiresAt,started,expires,last,ended,rfl,_⟩ := rangeSource.mp is
    simp only [Int.cast_max,Int.cast_min,max_le_iff,lt_min_iff] at start end_
    refine ⟨startedAt,expiresAt,started,expires,start.2,end_.1.2,fun date some_ => ?_⟩
    rw [some_] at ended
    exact ⟨last,ended,end_.2⟩
  · rintro ⟨startedAt,expiresAt,started,expires,start,end_,open_⟩
    have last : ∃ last : Int, pause.endedAt.getD (some upper) = some last ∧ x < last := by
      cases is : pause.endedAt with
      | none => exact ⟨upper,rfl,inside.2⟩
      | some date => exact open_ date is
    obtain ⟨last,ended,before⟩ := last
    have from_ : ((max lower startedAt : Int) : ℝ) ≤ x := by
      rw [Int.cast_max]
      exact max_le inside.1 start
    have until_ : x < ((min (min upper expiresAt) last : Int) : ℝ) := by
      rw [Int.cast_min,Int.cast_min]
      exact lt_min (lt_min inside.2 end_) before
    exact ⟨_,rangeSource.mpr ⟨startedAt,expiresAt,started,expires,last,ended,rfl,Int.cast_lt.mp (from_.trans_lt until_)⟩,from_,until_⟩

end Ranges

/-- The ranges in the order of the sweep. -/
def ranges (pauses : List DispatchEditPause) (lower upper : Int) : List Range :=
  (pauses.filterMap (·.range lower upper)).insertionSort fun r s => r.1 ≤ s.1

theorem rangesSorted (pauses : List DispatchEditPause) (lower upper : Int) : (ranges pauses lower upper).Pairwise fun r s => r.1 ≤ s.1 :=
  List.pairwise_insertionSort _ _

theorem millisecondsSweep (pauses : List DispatchEditPause) (lower upper : Int) :
    editPauseMilliseconds pauses (some lower) (some upper) = if upper ≤ lower then 0 else sweep lower (ranges pauses lower upper) := by
  rw [editPauseMilliseconds]
  split
  · rfl
  · rw [sweepFold,Int.zero_add,ranges]

/-- What is in effect within the limits is covered by the ranges. -/
theorem rangesCover (pauses : List DispatchEditPause) (lower upper : Int) :
    Set.Ici (lower : ℝ) ∩ covered (ranges pauses lower upper) =
      {x : ℝ | lower ≤ x ∧ x < upper ∧ ∃ pause ∈ pauses, pause.InEffect x} := by
  ext x
  simp only [Set.mem_inter_iff,Set.mem_Ici,covered,Set.mem_ofPred_eq,ranges,List.mem_insertionSort,List.mem_filterMap]
  constructor
  · rintro ⟨from_,r,⟨pause,mem,is⟩,start,end_⟩
    have before : x < upper := by
      obtain ⟨_,_,_,_,_,_,rfl,_⟩ := rangeSource.mp is
      simp only [Int.cast_min,lt_min_iff] at end_
      exact end_.1.1
    exact ⟨from_,before,pause,mem,(rangeInEffect ⟨from_,before⟩).mp ⟨r,is,start,end_⟩⟩
  · rintro ⟨from_,before,pause,mem,effect⟩
    obtain ⟨r,is,start,end_⟩ := (rangeInEffect ⟨from_,before⟩).mpr effect
    exact ⟨from_,r,⟨pause,mem,is⟩,start,end_⟩

theorem millisecondsVolume (pauses : List DispatchEditPause) (lower upper : Int) :
    volume {x : ℝ | lower ≤ x ∧ x < upper ∧ ∃ pause ∈ pauses, pause.InEffect x} =
      ENNReal.ofReal (editPauseMilliseconds pauses (some lower) (some upper)) := by
  rw [millisecondsSweep]
  split
  · rename_i empty
    have none_ : {x : ℝ | lower ≤ x ∧ x < upper ∧ ∃ pause ∈ pauses, pause.InEffect x} = ∅ := by
      ext x
      simp only [Set.mem_ofPred_eq,Set.mem_empty_iff_false,iff_false]
      rintro ⟨from_,before,_⟩
      exact absurd (from_.trans_lt before) (not_lt.mpr (Int.cast_le.mpr empty))
    simp [none_]
  · rw [← rangesCover,sweepVolume (rangesSorted _ _ _)]

instance : Std.Total rangeLe := ⟨fun r s => by
  unfold rangeLe
  omega⟩

instance : IsTrans Range rangeLe := ⟨fun r s t => by
  unfold rangeLe
  omega⟩

theorem rowRanges (table : List OrderEditPause) (orderId : OrderId) (startAt endAt : Int) :
    ((table.filter fun p => p.orderId = orderId ∧ p.startedAt < endAt ∧ startAt < p.expiresAt).map (·.tsrange startAt endAt)).filter
        (fun r => r.1 < r.2) =
      ((table.filter (·.orderId = orderId)).map (·.selected)).filterMap (·.range startAt endAt) := by
  induction table with
  | nil => rfl
  | cons p rest ih =>
    have last : (p.endedAt.map some).getD (some endAt) = some (p.endedAt.getD endAt) := by cases p.endedAt <;> rfl
    have range_ : p.selected.range startAt endAt =
        if max startAt p.startedAt < min (min endAt p.expiresAt) (p.endedAt.getD endAt) then
          some (max startAt p.startedAt,min (min endAt p.expiresAt) (p.endedAt.getD endAt)) else none := by
      simp only [OrderEditPause.selected,DispatchEditPause.range,mathMax,mathMin,last,Option.bind_eq_bind,Option.bind_some]
    have comm := max_comm p.startedAt startAt
    by_cases mine : p.orderId = orderId
    · by_cases proper : max startAt p.startedAt < min (min endAt p.expiresAt) (p.endedAt.getD endAt)
      · have row : p.tsrange startAt endAt = (max startAt p.startedAt,min (min endAt p.expiresAt) (p.endedAt.getD endAt)) := by
          rw [OrderEditPause.tsrange,comm,max_eq_right proper.le]
        have where_ : p.startedAt < endAt ∧ startAt < p.expiresAt := by omega
        rw [List.filter_cons_of_pos (by simpa using ⟨mine,where_⟩),List.filter_cons_of_pos (by simpa using mine),List.map_cons,List.map_cons,
          row,List.filter_cons_of_pos (by simpa using proper),ih,List.filterMap_cons_some (by rw [range_,if_pos proper])]
      · have empty : ¬(p.tsrange startAt endAt).1 < (p.tsrange startAt endAt).2 := by
          dsimp only [OrderEditPause.tsrange]
          omega
        rw [List.filter_cons_of_pos (p := fun q : OrderEditPause => q.orderId = orderId) (by simpa using mine),List.map_cons,
          List.filterMap_cons_none (by rw [range_,if_neg proper]),← ih]
        by_cases where_ : p.startedAt < endAt ∧ startAt < p.expiresAt
        · rw [List.filter_cons_of_pos (by simpa using ⟨mine,where_⟩),List.map_cons,List.filter_cons_of_neg (by simpa using empty)]
        · rw [List.filter_cons_of_neg (by simpa [mine] using where_)]
    · rw [List.filter_cons_of_neg (by simp [mine]),List.filter_cons_of_neg (by simp [mine]),ih]

theorem durationMilliseconds (table : List OrderEditPause) (orderId : OrderId) (startAt endAt : Int) :
    dispatchEditPauseDuration table orderId startAt endAt =
      editPauseMilliseconds ((table.filter (·.orderId = orderId)).map (·.selected)) (some startAt) (some endAt) := by
  rw [dispatchEditPauseDuration,rangeAgg,rowRanges,millisecondsSweep]
  generalize (table.filter (·.orderId = orderId)).map (·.selected) = pauses
  have sorted := List.pairwise_insertionSort rangeLe (pauses.filterMap (·.range startAt endAt))
  have sortedByStart := sorted.imp fun {r s} before => show r.1 ≤ s.1 by
    unfold rangeLe at before
    omega
  have proper : ∀ r ∈ (pauses.filterMap (·.range startAt endAt)).insertionSort rangeLe, startAt ≤ r.1 ∧ r.1 ≤ r.2 ∧ r.1 < endAt := by
    intro r mem
    obtain ⟨pause,_,is⟩ := List.mem_filterMap.mp ((List.mem_insertionSort _).mp mem)
    obtain ⟨_,_,_,_,_,_,rfl,proper⟩ := rangeSource.mp is
    dsimp only at proper ⊢
    omega
  rw [totalMerged (fun r mem => show startAt ≤ r.1 ∧ r.1 ≤ r.2 from ⟨(proper r mem).1,(proper r mem).2.1⟩) sortedByStart]
  split
  · rename_i empty
    have none_ : (pauses.filterMap (·.range startAt endAt)).insertionSort rangeLe = [] := by
      rw [List.eq_nil_iff_forall_not_mem]
      intro r mem
      have := proper r mem
      omega
    rw [none_]
    rfl
  · exact sweepSame sortedByStart (rangesSorted _ _ _) ((List.perm_insertionSort _ _).trans (List.perm_insertionSort _ _).symm)

theorem millisecondsOrder {pauses other : List DispatchEditPause} (same : pauses.Perm other) (start end_ : Date) :
    editPauseMilliseconds pauses start end_ = editPauseMilliseconds other start end_ := by
  cases start with
  | none => rfl
  | some lower =>
    cases end_ with
    | none => rfl
    | some upper =>
      have sweeps : sweep lower (ranges pauses lower upper) = sweep lower (ranges other lower upper) := by
        refine sweepSame (rangesSorted _ _ _) (rangesSorted _ _ _) ?_
        exact ((List.perm_insertionSort _ _).trans (same.filterMap _)).trans (List.perm_insertionSort _ _).symm
      rw [millisecondsSweep,millisecondsSweep,sweeps]

theorem millisecondsBounded (pauses : List DispatchEditPause) (lower upper : Int) :
    0 ≤ editPauseMilliseconds pauses (some lower) (some upper) ∧
      editPauseMilliseconds pauses (some lower) (some upper) ≤ max 0 (upper - lower) := by
  have nonneg : 0 ≤ editPauseMilliseconds pauses (some lower) (some upper) := by
    rw [millisecondsSweep]
    split
    · exact Int.le_refl 0
    · exact sweepNonneg _ _
  refine ⟨nonneg,?_⟩
  have within : {x : ℝ | lower ≤ x ∧ x < upper ∧ ∃ pause ∈ pauses, pause.InEffect x} ⊆ Set.Ico (lower : ℝ) upper :=
    fun x inside => ⟨inside.1,inside.2.1⟩
  have volumes := measure_mono (μ := volume) within
  rw [millisecondsVolume,Real.volume_Ico] at volumes
  by_cases some_ : lower ≤ upper
  · have := (ENNReal.ofReal_le_ofReal_iff (sub_nonneg.mpr (Int.cast_le.mpr some_))).mp volumes
    have : editPauseMilliseconds pauses (some lower) (some upper) ≤ upper - lower := by exact_mod_cast this
    omega
  · rw [millisecondsSweep,if_pos (by omega)]
    exact le_max_left _ _

/-! ### Sessions -/

def sessionPause (p : EditPauseSession) : DispatchEditPause :=
  ⟨some p.startedAt,some p.expiresAt,p.endedAt.map fun endedAt : Nat => some (endedAt : Int)⟩

def whole (r : IntervalUnion.Range) : Range := (r.1,r.2)

theorem wholeSweep (cursor : Nat) (ranges : List IntervalUnion.Range) :
    (IntervalUnion.sweep cursor ranges : Int) = sweep cursor (ranges.map whole) := by
  induction ranges generalizing cursor with
  | nil => rfl
  | cons r rest ih =>
    have cursors : ((max cursor r.2 : Nat) : Int) = max (cursor : Int) (whole r).2 := by simp [whole]
    have first : ((r.2 - max cursor r.1 : Nat) : Int) = max 0 ((whole r).2 - max (cursor : Int) (whole r).1) := by
      dsimp only [whole]
      omega
    rw [IntervalUnion.sweep,List.map_cons,sweep,← cursors,← ih,← first]
    push_cast
    rfl

theorem sessionRanges (pauses : List EditPauseSession) (lower upper : Nat) :
    ((pauses.map (·.range lower upper)).filter fun r => r.1 < r.2).map whole =
      (pauses.map sessionPause).filterMap (·.range lower upper) := by
  induction pauses with
  | nil => rfl
  | cons p rest ih =>
    have last : (p.endedAt.map fun endedAt : Nat => some (endedAt : Int)).getD (some (upper : Int)) = some ((p.endedAt.getD upper : Nat) : Int) := by
      cases p.endedAt <;> rfl
    have start : max (lower : Int) p.startedAt = (whole (p.range lower upper)).1 := by simp [whole,EditPauseSession.range]
    have stop : min (min (upper : Int) p.expiresAt) ((p.endedAt.getD upper : Nat) : Int) = (whole (p.range lower upper)).2 := by
      simp [whole,EditPauseSession.range,min_assoc]
    have range_ : (sessionPause p).range lower upper =
        if (whole (p.range lower upper)).1 < (whole (p.range lower upper)).2 then some (whole (p.range lower upper)) else none := by
      simp only [sessionPause,DispatchEditPause.range,mathMax,mathMin,last,Option.bind_eq_bind,Option.bind_some,start,stop]
    rw [List.map_cons,List.map_cons,List.filter_cons,List.filterMap_cons,range_]
    by_cases proper : (p.range lower upper).1 < (p.range lower upper).2
    · simp [proper,ih,whole]
    · simp [proper,ih,whole]

/-- What the sessions of an order are credited is what the services compute from their dates. -/
theorem sessionMilliseconds (pauses : List EditPauseSession) (lower upper : Nat) :
    (SpeedySweeties.editPauseMilliseconds pauses lower upper : Int) =
      editPauseMilliseconds (pauses.map sessionPause) (some (lower : Int)) (some (upper : Int)) := by
  rw [SpeedySweeties.editPauseMilliseconds,millisecondsSweep]
  by_cases empty : upper ≤ lower
  · rw [if_pos empty,if_pos (Int.ofNat_le.mpr empty)]
    rfl
  rw [if_neg empty,if_neg (fun h => empty (Int.ofNat_le.mp h)),wholeSweep]
  refine sweepSame ?_ (rangesSorted _ _ _) ?_
  · exact (List.pairwise_insertionSort _ _).map whole fun r s before => Int.ofNat_le.mpr before
  · rw [ranges,← sessionRanges]
    exact ((List.perm_insertionSort _ _).map whole).trans (List.perm_insertionSort _ _).symm

/-! ### Measure -/

/-- The services and the database function measure the same union, and what is not paused is waited. -/
theorem editPauseMeasure (lower upper : Int) :
    (∀ pauses : List DispatchEditPause, 0 ≤ editPauseMilliseconds pauses (some lower) (some upper) ∧
      volume {x : ℝ | lower ≤ x ∧ x < upper ∧ ∃ pause ∈ pauses, pause.InEffect x} =
        ENNReal.ofReal (editPauseMilliseconds pauses (some lower) (some upper)) ∧
      (∀ other, pauses.Perm other → editPauseMilliseconds pauses (some lower) (some upper) = editPauseMilliseconds other (some lower) (some upper)) ∧
      (dispatchWaitingMilliseconds (some lower) (some upper) pauses).map (· + editPauseMilliseconds pauses (some lower) (some upper)) =
        some (max 0 (upper - lower))) ∧
    ∀ (table : List OrderEditPause) (orderId : OrderId), dispatchEditPauseDuration table orderId lower upper =
      editPauseMilliseconds ((table.filter (·.orderId = orderId)).map (·.selected)) (some lower) (some upper) := by
  refine ⟨fun pauses => ?_,fun table orderId => durationMilliseconds table orderId lower upper⟩
  obtain ⟨nonneg,most⟩ := millisecondsBounded pauses lower upper
  refine ⟨nonneg,millisecondsVolume pauses lower upper,fun other same => millisecondsOrder same _ _,?_⟩
  simp only [dispatchWaitingMilliseconds,Option.bind_eq_bind,Option.bind_some,Option.map_some,Option.some.injEq]
  omega

theorem editPauseMeasureSwapped :
    editPauseMilliseconds [⟨some 120,some 165,some (some 160)⟩,⟨some 150,some 195,none⟩] (some 0) (some 300) =
      editPauseMilliseconds [⟨some 150,some 195,none⟩,⟨some 120,some 165,some (some 160)⟩] (some 0) (some 300) :=
  ((editPauseMeasure 0 300).1 _).2.2.1 _ (.swap _ _ _)

end SpeedySweeties.DispatchTiming
