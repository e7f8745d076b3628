import Mathlib.Data.List.Sort
import Mathlib.MeasureTheory.Measure.Lebesgue.Basic

/-! The measure of a union of half-open ranges between whole numbers. It is computed in two ways:
by one sweep over the ranges in the order of their starts, and by merging those that overlap or
touch and adding up the lengths of what is left. -/
namespace RangeMeasure
open MeasureTheory

abbrev Range := Int × Int

def covered (ranges : List Range) : Set ℝ := {x | ∃ r ∈ ranges, (r.1 : ℝ) ≤ x ∧ x < r.2}

/-- The cursor is the point up to which everything has been counted. -/
def sweep (cursor : Int) : List Range → Int
  | [] => 0
  | r::rest => max 0 (r.2 - max cursor r.1) + sweep (max cursor r.2) rest

/-- A range goes into the last one unless there is a gap between them. -/
def mergeInto (last : Range) : List Range → List Range
  | [] => [last]
  | r::rest => if last.2 < r.1 then last::mergeInto r rest else mergeInto (last.1,max last.2 r.2) rest

def merged : List Range → List Range
  | [] => []
  | r::rest => mergeInto r rest

def total (ranges : List Range) : Int := (ranges.map fun r => r.2 - r.1).sum

theorem sweepNonneg (cursor : Int) (ranges : List Range) : 0 ≤ sweep cursor ranges := by
  induction ranges generalizing cursor with
  | nil => exact Int.le_refl 0
  | cons r rest ih =>
    have := ih (max cursor r.2)
    simp only [sweep]
    omega

theorem sweepFold (ranges : List Range) (counted cursor : Int) :
    (ranges.foldl (fun s r => (s.1 + max 0 (r.2 - max s.2 r.1),max s.2 r.2)) (counted,cursor)).1 = counted + sweep cursor ranges := by
  induction ranges generalizing counted cursor with
  | nil => simp [sweep]
  | cons r rest ih => rw [List.foldl_cons,ih,sweep,Int.add_assoc]

theorem coveredCons (r : Range) (rest : List Range) : covered (r::rest) = Set.Ico (r.1 : ℝ) r.2 ∪ covered rest := by
  ext x
  simp [covered]

theorem measurableCovered (ranges : List Range) : MeasurableSet (covered ranges) := by
  induction ranges with
  | nil => simp [covered]
  | cons r rest ih =>
    rw [coveredCons]
    exact measurableSet_Ico.union ih

/-- What the first range adds to the part from the cursor on, and what is left for the others. -/
theorem coveredFrom {cursor : Int} {r : Range} {rest : List Range} (first : ∀ s ∈ rest, r.1 ≤ s.1) :
    Set.Ici (cursor : ℝ) ∩ covered (r::rest) =
      Set.Ico ((max cursor r.1 : Int) : ℝ) r.2 ∪ (Set.Ici ((max cursor r.2 : Int) : ℝ) ∩ covered rest) := by
  ext x
  simp only [coveredCons,Set.mem_inter_iff,Set.mem_Ici,Set.mem_union,Set.mem_Ico,Int.cast_max,max_le_iff]
  constructor
  · rintro ⟨from_,⟨start,end_⟩ | later⟩
    · exact .inl ⟨⟨from_,start⟩,end_⟩
    · obtain ⟨s,mem,start,end_⟩ := later
      by_cases before : x < r.2
      · exact .inl ⟨⟨from_,(Int.cast_le.mpr (first s mem)).trans start⟩,before⟩
      · exact .inr ⟨⟨from_,not_lt.mp before⟩,s,mem,start,end_⟩
  · rintro (⟨⟨from_,start⟩,end_⟩ | ⟨⟨from_,_⟩,later⟩)
    · exact ⟨from_,.inl ⟨start,end_⟩⟩
    · exact ⟨from_,.inr later⟩

theorem sweepVolume {cursor : Int} {ranges : List Range} (sorted : ranges.Pairwise fun r s => r.1 ≤ s.1) :
    volume (Set.Ici (cursor : ℝ) ∩ covered ranges) = ENNReal.ofReal (sweep cursor ranges) := by
  induction ranges generalizing cursor with
  | nil => simp [covered,sweep]
  | cons r rest ih =>
    obtain ⟨first,sorted⟩ := List.pairwise_cons.mp sorted
    have apart : Disjoint (Set.Ico ((max cursor r.1 : Int) : ℝ) r.2) (Set.Ici ((max cursor r.2 : Int) : ℝ) ∩ covered rest) := by
      rw [Set.disjoint_left]
      intro x here later
      have after_ : (r.2 : ℝ) ≤ x := (Int.cast_le.mpr (le_max_right _ _)).trans later.1
      exact absurd here.2 (not_lt.mpr after_)
    have length : ENNReal.ofReal (r.2 - (max cursor r.1 : Int)) = ENNReal.ofReal ((max 0 (r.2 - max cursor r.1) : Int) : ℝ) := by
      rcases le_total (r.2 - max cursor r.1) 0 with none_ | some_
      · rw [max_eq_left none_,Int.cast_zero,ENNReal.ofReal_zero,ENNReal.ofReal_eq_zero,← Int.cast_sub]
        exact_mod_cast none_
      · rw [max_eq_right some_,Int.cast_sub]
    rw [coveredFrom first,measure_union apart (measurableSet_Ici.inter (measurableCovered rest)),Real.volume_Ico,ih sorted,length,
      ← ENNReal.ofReal_add (by exact_mod_cast le_max_left _ _) (by exact_mod_cast sweepNonneg _ _),sweep]
    push_cast
    rfl

theorem sweepSame {cursor : Int} {ranges other : List Range} (sorted : ranges.Pairwise fun r s => r.1 ≤ s.1)
    (sorted' : other.Pairwise fun r s => r.1 ≤ s.1) (same : ranges.Perm other) : sweep cursor ranges = sweep cursor other := by
  have cover : covered ranges = covered other := by
    ext x
    simp only [covered,Set.mem_ofPred_eq,same.mem_iff]
  have volumes : volume (Set.Ici (cursor : ℝ) ∩ covered ranges) = _ := sweepVolume sorted
  rw [cover,sweepVolume sorted',ENNReal.ofReal_eq_ofReal_iff (by exact_mod_cast sweepNonneg _ _) (by exact_mod_cast sweepNonneg _ _)] at volumes
  exact_mod_cast volumes.symm

theorem totalMergeInto {last : Range} {rest : List Range} (proper : last.1 ≤ last.2) (others : ∀ r ∈ rest, last.1 ≤ r.1 ∧ r.1 ≤ r.2)
    (sorted : rest.Pairwise fun r s => r.1 ≤ s.1) : total (mergeInto last rest) = (last.2 - last.1) + sweep last.2 rest := by
  induction rest generalizing last with
  | nil => simp [mergeInto,total,sweep]
  | cons r rest ih =>
    obtain ⟨⟨_,properR⟩,others⟩ := List.forall_mem_cons.mp others
    obtain ⟨first,sorted⟩ := List.pairwise_cons.mp sorted
    rw [mergeInto]
    split
    · rename_i gap
      have after_ := ih properR (fun s mem => ⟨first s mem,(others s mem).2⟩) sorted
      have cursor : max last.2 r.2 = r.2 := by omega
      rw [total,List.map_cons,List.sum_cons,← total,after_,sweep,cursor]
      omega
    · have after_ : total (mergeInto (last.1,max last.2 r.2) rest) = max last.2 r.2 - last.1 + sweep (max last.2 r.2) rest :=
        ih (by dsimp only; omega) (fun s mem => others s mem) sorted
      rw [after_,sweep]
      omega

theorem totalMerged {cursor : Int} {ranges : List Range} (proper : ∀ r ∈ ranges, cursor ≤ r.1 ∧ r.1 ≤ r.2)
    (sorted : ranges.Pairwise fun r s => r.1 ≤ s.1) : total (merged ranges) = sweep cursor ranges := by
  cases ranges with
  | nil => rfl
  | cons r rest =>
    obtain ⟨⟨from_,properR⟩,others⟩ := List.forall_mem_cons.mp proper
    obtain ⟨first,sorted⟩ := List.pairwise_cons.mp sorted
    have start : max cursor r.1 = r.1 := max_eq_right from_
    have end_ : max cursor r.2 = r.2 := max_eq_right (from_.trans properR)
    rw [merged,totalMergeInto properR (fun s mem => ⟨first s mem,(others s mem).2⟩) sorted,sweep,start,end_]
    omega

end RangeMeasure
