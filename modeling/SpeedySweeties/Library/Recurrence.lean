import Mathlib.Order.Bounds.Basic
import Mathlib.Tactic.Linarith

/-! Spans that come back in every cycle, without end in both directions. A moment of the current
cycle can only lie in the shift of this cycle or of the one before, and whatever begins next begins
in this cycle or in the one after. -/
namespace Recurrence

structure Span where
  opens : Int
  closes : Int
  deriving DecidableEq, Repr

namespace Span

def Holds (s : Span) (moment : Int) : Prop := s.opens ≤ moment ∧ moment < s.closes

instance (s : Span) (moment : Int) : Decidable (s.Holds moment) := inferInstanceAs (Decidable (_ ∧ _))

def shift (s : Span) (by_ : Int) : Span := ⟨s.opens + by_,s.closes + by_⟩

/-- It begins in the first cycle and lasts for one cycle at most. -/
structure Within (s : Span) (cycle : Int) : Prop where
  low : 0 ≤ s.opens
  high : s.opens < cycle
  forward : s.opens < s.closes
  short : s.closes ≤ s.opens + cycle

/-- The starts of all the shifts by whole cycles, counted from `origin`. -/
def starts (s : Span) (cycle origin : Int) : Set Int := {start | ∃ cycles : Int, start = s.opens + (origin + cycles*cycle)}

def Recurs (s : Span) (cycle origin moment : Int) : Prop := ∃ cycles : Int, (s.shift (origin + cycles*cycle)).Holds moment

variable {s : Span} {cycle origin base moment cycles : Int}

section Current
variable (w : s.Within cycle) (from_ : base ≤ moment) (until_ : moment < base + cycle)
include w from_ until_

theorem cyclesNow (holds : (s.shift (base + cycles*cycle)).Holds moment) : cycles = 0 ∨ cycles = -1 := by
  obtain ⟨begun,going⟩ := holds
  have low := w.low
  have high := w.high
  have short := w.short
  simp only [shift] at begun going
  have few : cycles < 1 := by
    by_contra more
    have : 1*cycle ≤ cycles*cycle := Int.mul_le_mul_of_nonneg_right (by omega) (by omega)
    omega
  have many : -2 < cycles := by
    by_contra less
    have : cycles*cycle ≤ -2*cycle := Int.mul_le_mul_of_nonneg_right (by omega) (by omega)
    omega
  omega

/-- What begins after a moment of this cycle is not a shift back. -/
theorem cyclesNext (later : moment < s.opens + (base + cycles*cycle)) : 0 ≤ cycles := by
  have low := w.low
  have high := w.high
  by_contra back
  have : cycles*cycle ≤ -1*cycle := Int.mul_le_mul_of_nonneg_right (by omega) (by omega)
  omega

theorem recursAround (aligned : ∃ since : Int, base = origin + since*cycle) :
    s.Recurs cycle origin moment ↔ ∃ offset ∈ [-cycle,0,cycle], (s.shift (base + offset)).Holds moment := by
  obtain ⟨since,is⟩ := aligned
  have moved (cycles : Int) : origin + cycles*cycle = base + (cycles - since)*cycle := by rw [is,sub_mul]; omega
  constructor
  · intro ⟨cycles,holds⟩
    rw [moved] at holds
    rcases cyclesNow w from_ until_ holds with here | before
    · exact ⟨0,by simp,by simpa [here] using holds⟩
    · exact ⟨-cycle,by simp,by simpa [before] using holds⟩
  · intro ⟨offset,mem,holds⟩
    have : ∃ cycles : Int, offset = cycles*cycle := by
      simp only [List.mem_cons,List.not_mem_nil,or_false] at mem
      rcases mem with rfl | rfl | rfl
      · exact ⟨-1,by omega⟩
      · exact ⟨0,by omega⟩
      · exact ⟨1,by omega⟩
    obtain ⟨cycles,rfl⟩ := this
    exact ⟨cycles + since,by rw [moved]; simpa using holds⟩

/-- For every later start there is one that is no later than it and a shift of the cycles around the moment. -/
theorem startAround (aligned : ∃ since : Int, base = origin + since*cycle) {start : Int} (mem : start ∈ s.starts cycle origin)
    (later : moment < start) : ∃ offset ∈ [-cycle,0,cycle], moment < s.opens + (base + offset) ∧ s.opens + (base + offset) ≤ start := by
  obtain ⟨since,is⟩ := aligned
  obtain ⟨cycles,rfl⟩ := mem
  have moved : origin + cycles*cycle = base + (cycles - since)*cycle := by rw [is,sub_mul]; omega
  rw [moved] at later ⊢
  have forward := cyclesNext w from_ until_ later
  have low := w.low
  by_cases here : cycles - since = 0
  · rw [here] at later ⊢
    exact ⟨0,by simp,by omega,by omega⟩
  · have : 1*cycle ≤ (cycles - since)*cycle := Int.mul_le_mul_of_nonneg_right (by omega) (by omega)
    exact ⟨cycle,by simp,by omega,by omega⟩

end Current

theorem startOfShift (aligned : ∃ since : Int, base = origin + since*cycle) {offset : Int} (mem : offset ∈ [-cycle,0,cycle]) :
    s.opens + (base + offset) ∈ s.starts cycle origin := by
  obtain ⟨since,rfl⟩ := aligned
  simp only [List.mem_cons,List.not_mem_nil,or_false] at mem
  rcases mem with rfl | rfl | rfl
  · exact ⟨since - 1,by rw [sub_mul]; omega⟩
  · exact ⟨since,by omega⟩
  · exact ⟨since + 1,by rw [add_mul]; omega⟩

end Span

/-- The least of a set is the least of those of its elements that every other one has one of before it. -/
theorem leastAmong {all few : Set Int} {least : Int} (inside : few ⊆ all) (before : ∀ x ∈ all, ∃ y ∈ few, y ≤ x) :
    IsLeast all least ↔ IsLeast few least := by
  constructor
  · intro ⟨mem,le⟩
    obtain ⟨first,here,first_le⟩ := before least mem
    have same : first = least := first_le.antisymm (le (inside here))
    exact ⟨same ▸ here,fun x hx => le (inside hx)⟩
  · intro ⟨mem,le⟩
    refine ⟨inside mem,fun x hx => ?_⟩
    obtain ⟨first,here,first_le⟩ := before x hx
    exact (le here).trans first_le

end Recurrence
