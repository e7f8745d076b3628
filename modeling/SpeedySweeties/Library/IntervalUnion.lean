import Mathlib.Data.Finset.Card
import Mathlib.Data.List.Sort
import Mathlib.Order.Interval.Finset.Nat

/-! The length of a union of half-open intervals, by one sweep over the intervals in the
order of their starts. -/
namespace IntervalUnion

abbrev Range := Nat × Nat

def Within (x : Nat) (r : Range) : Prop := r.1 ≤ x ∧ x < r.2

/-- The cursor is the point up to which everything has been counted. -/
def sweep (cursor : Nat) : List Range → Nat
  | [] => 0
  | r::rest => (r.2 - max cursor r.1) + sweep (max cursor r.2) rest

def union (cursor : Nat) : List Range → Finset Nat
  | [] => ∅
  | r::rest => Finset.Ico (max cursor r.1) r.2 ∪ union cursor rest

theorem mem_union {cursor x : Nat} {ranges : List Range} :
    x ∈ union cursor ranges ↔ cursor ≤ x ∧ ∃ r ∈ ranges, Within x r := by
  induction ranges with
  | nil => simp [union]
  | cons r rest ih =>
    simp only [union,Finset.mem_union,Finset.mem_Ico,ih,List.exists_mem_cons_iff,Within]
    constructor
    · rintro (⟨from_,before⟩ | ⟨from_,later⟩)
      · exact ⟨by omega,.inl ⟨by omega,before⟩⟩
      · exact ⟨from_,.inr later⟩
    · rintro ⟨from_,here | later⟩
      · exact .inl ⟨by omega,here.2⟩
      · exact .inr ⟨from_,later⟩

theorem sweepUnion {cursor : Nat} {ranges : List Range} (sorted : ranges.Pairwise fun r s => r.1 ≤ s.1) :
    sweep cursor ranges = (union cursor ranges).card := by
  induction ranges generalizing cursor with
  | nil => rfl
  | cons r rest ih =>
    obtain ⟨first,sorted⟩ := List.pairwise_cons.mp sorted
    have split : union cursor (r::rest) = Finset.Ico (max cursor r.1) r.2 ∪ union (max cursor r.2) rest := by
      ext x
      simp only [union,Finset.mem_union,mem_union,Finset.mem_Ico]
      constructor
      · rintro (here | ⟨from_,s,mem,start,end_⟩)
        · exact .inl here
        · have := first s mem
          by_cases before : x < r.2
          · exact .inl ⟨by omega,before⟩
          · exact .inr ⟨by omega,s,mem,start,end_⟩
      · rintro (here | ⟨from_,later⟩)
        · exact .inl here
        · exact .inr ⟨by omega,later⟩
    have disjoint : Disjoint (Finset.Ico (max cursor r.1) r.2) (union (max cursor r.2) rest) := by
      rw [Finset.disjoint_left]
      intro x here later
      have := (Finset.mem_Ico.mp here).2
      have := (mem_union.mp later).1
      omega
    rw [split,Finset.card_union_of_disjoint disjoint,Nat.card_Ico,sweep,ih sorted]

end IntervalUnion
