import Mathlib.Algebra.Order.Ring.Int
import Mathlib.Tactic.ByContra
import SpeedySweeties.Library.Calendar

/-! Wall clocks. A zone says by how many whole minutes its clocks are ahead of UTC in every
minute since 1970. Clocks are set forward or back now and then: by more than three minutes and
by a day at most, and never twice within three minutes. -/
namespace WallClock

structure Zone where
  offset : Int → Int
  size (m n : Int) : m ≤ n → n ≤ m + 3 → offset n = offset m ∨ (offset m + 3 < offset n ∧ offset n ≤ offset m + 1440) ∨
    (offset n + 3 < offset m ∧ offset m ≤ offset n + 1440)
  apart (m n : Int) : offset (m + 1) ≠ offset m → m < n → n ≤ m + 3 → offset n = offset (m + 1)

namespace Zone

def fixed (minutes : Int) : Zone where
  offset _ := minutes
  size _ _ _ _ := .inl rfl
  apart _ _ changed _ _ := absurd rfl changed

variable (z : Zone) {arrival : Int}

/-- What a clock of the zone shows in a UTC minute, in minutes of its own since 1970. -/
def shown (n : Int) : Int := n + z.offset n

def minute (at_ : Int) : Int := z.shown (at_/60000)

def clock (at_ : Int) : Int := at_ + 60000*z.offset (at_/60000)

theorem clockMinute (at_ : Int) : z.clock at_ = 60000*z.minute at_ + at_ % 60000 := by
  have := Int.mul_ediv_add_emod at_ 60000
  unfold clock minute shown
  omega

theorem minuteLater (arrival n : Int) : z.minute (arrival + n*60000) = z.shown (arrival/60000 + n) := by
  rw [minute,Int.add_mul_ediv_right _ _ (by decide)]

/-- The clock reaches `closing`, a minute of its own, no sooner than three minutes after `arrival`. -/
def ReachedAfter (arrival closing : Int) : Prop :=
  ∀ at_, arrival ≤ at_ → 60000*closing ≤ z.clock at_ → arrival + 180000 ≤ at_

/-- It is enough to look at the clock at three minutes, and at the last one only if it has begun. -/
theorem reachedAfter {closing : Int} (before : z.minute arrival < closing) :
    z.ReachedAfter arrival closing ↔ z.minute (arrival + 60000) < closing ∧ z.minute (arrival + 120000) < closing ∧
      (arrival % 60000 = 0 ∨ z.minute (arrival + 180000) < closing) := by
  have one := z.minuteLater arrival 1
  have two := z.minuteLater arrival 2
  have three := z.minuteLater arrival 3
  have whole := Int.mul_ediv_add_emod arrival 60000
  have low : 0 ≤ arrival % 60000 := Int.emod_nonneg _ (by decide)
  have high : arrival % 60000 < 60000 := Int.emod_lt_of_pos _ (by decide)
  simp only [one_mul,Int.reduceMul] at one two three
  rw [one,two,three]
  unfold minute at before
  generalize arrival/60000 = m at *
  have startOf : ∀ n, z.clock (60000*n) = 60000*z.shown n := fun n => by
    have : 60000*n/60000 = n := by omega
    rw [clock,this,shown]
    omega
  constructor
  · intro reached
    refine ⟨?_,?_,?_⟩
    · by_contra late
      have := reached (60000*(m + 1)) (by omega) (by rw [startOf]; omega)
      omega
    · by_contra late
      have := reached (60000*(m + 2)) (by omega) (by rw [startOf]; omega)
      omega
    · by_contra neither
      have := reached (60000*(m + 3)) (by omega) (by rw [startOf]; omega)
      omega
  · intro ⟨first,second,third⟩ at_ from_ shows
    by_contra soon
    have whole' := Int.mul_ediv_add_emod at_ 60000
    have short : at_ % 60000 < 60000 := Int.emod_lt_of_pos _ (by decide)
    have none : 0 ≤ at_ % 60000 := Int.emod_nonneg _ (by decide)
    rw [clockMinute,minute] at shows
    generalize at_/60000 = n at *
    have : n = m ∨ n = m + 1 ∨ n = m + 2 ∨ n = m + 3 := by omega
    rcases this with rfl | rfl | rfl | rfl <;> omega

end Zone
end WallClock
