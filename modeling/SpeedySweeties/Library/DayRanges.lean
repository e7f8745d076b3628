import Mathlib.Algebra.Order.Ring.Int
import Mathlib.Order.Monotone.Basic

/-! Ranges of days, one after the other, and the instants that they cover. What separates two
ranges is what lies between the end of a day and the beginning of the next. -/
namespace DayRanges

/-- The parts run from the first day to the last one, each from the day after the one before. -/
inductive Tiles : Int → Int → List (Int × Int) → Prop
  | one {first last : Int} : first ≤ last → Tiles first last [(first,last)]
  | cons {first middle last : Int} {parts : List (Int × Int)} : first ≤ middle → Tiles (middle + 1) last parts →
      Tiles first last ((first,middle)::parts)

variable {first last : Int} {parts : List (Int × Int)}

theorem Tiles.ordered (h : Tiles first last parts) : first ≤ last := by
  induction h with
  | one h => exact h
  | cons h _ ih => omega

theorem countSame {α β : Type} {p : α → Bool} {q : β → Bool} {xs : List α} {ys : List β}
    (same : List.Forall₂ (fun x y => p x = q y) xs ys) : xs.countP p = ys.countP q := by
  induction same with
  | nil => rfl
  | cons head _ ih => rw [List.countP_cons,List.countP_cons,head,ih]

variable (lower upper : Int → Int)

/-- From the lower bound of the first day up to the upper bound of the last one. -/
def Covers (part : Int × Int) (instant : Int) : Prop := lower part.1 ≤ instant ∧ instant < upper part.2

instance (part : Int × Int) (instant : Int) : Decidable (Covers lower upper part instant) := inferInstanceAs (Decidable (_ ∧ _))

/-- After a part's last day and before the next part's first. -/
def Between (parts : List (Int × Int)) (instant : Int) : Prop :=
  ∃ part ∈ parts.dropLast, upper part.2 ≤ instant ∧ instant < lower (part.2 + 1)

instance (parts : List (Int × Int)) (instant : Int) : Decidable (Between lower upper parts instant) := inferInstanceAs (Decidable (∃ _ ∈ _, _))

section Bounds
variable {lower upper} (days : ∀ day, lower day ≤ upper day ∧ upper day ≤ lower (day + 1))
include days

theorem lowerMono {a b : Int} (le : a ≤ b) : lower a ≤ lower b :=
  monotone_int_of_le_succ (fun day => (days day).1.trans (days day).2) le

theorem upperAfter {a b : Int} (le : a ≤ b) : lower a ≤ upper b := (lowerMono days le).trans (days b).1

theorem betweenInside (h : Tiles first last parts) {instant : Int} (between : Between lower upper parts instant) :
    lower first ≤ instant ∧ instant < upper last := by
  induction h with
  | one => simp [Between] at between
  | @cons first middle last parts before rest ih =>
    obtain ⟨part,mem,above,below⟩ := between
    cases parts with
    | nil => simp at mem
    | cons second more =>
      rw [List.dropLast_cons_cons,List.mem_cons] at mem
      rcases mem with rfl | mem
      · exact ⟨(upperAfter days before).trans above,lt_of_lt_of_le below (upperAfter days rest.ordered)⟩
      · obtain ⟨low,high⟩ := ih ⟨part,mem,above,below⟩
        exact ⟨(lowerMono days (by omega)).trans low,high⟩

/-- An instant that the whole range covers is in exactly one part, or else between two of them. -/
theorem tilesCount (h : Tiles first last parts) (instant : Int) :
    parts.countP (fun part => Covers lower upper part instant) =
      if Covers lower upper (first,last) instant ∧ ¬Between lower upper parts instant then 1 else 0 := by
  induction h with
  | one => simp [Between,List.countP_cons]
  | @cons first middle last parts before rest ih =>
    have here := upperAfter days before
    have next := (days middle).2
    have later := upperAfter days rest.ordered
    have start := lowerMono days (show first ≤ middle + 1 by omega)
    have split : Between lower upper ((first,middle)::parts) instant ↔
        (upper middle ≤ instant ∧ instant < lower (middle + 1)) ∨ Between lower upper parts instant := by
      cases rest <;> simp [Between]
    have whole : Covers lower upper (first,last) instant ↔ lower first ≤ instant ∧ instant < upper last := Iff.rfl
    have head : Covers lower upper (first,middle) instant ↔ lower first ≤ instant ∧ instant < upper middle := Iff.rfl
    have tail : Covers lower upper (middle + 1,last) instant ↔ lower (middle + 1) ≤ instant ∧ instant < upper last := Iff.rfl
    have inside := fun between => betweenInside days rest (between : Between lower upper parts instant)
    rw [List.countP_cons,ih]
    rcases lt_or_ge instant (upper middle) with low | high
    · have elsewhere : ¬Covers lower upper (middle + 1,last) instant := by rw [tail]; omega
      have apart : ¬Between lower upper ((first,middle)::parts) instant := by
        rw [split]
        rintro (gap | between)
        · omega
        · have := inside between
          omega
      have same : Covers lower upper (first,last) instant ↔ Covers lower upper (first,middle) instant := by rw [whole,head]; omega
      simp [elsewhere,apart,same]
    · have elsewhere : ¬Covers lower upper (first,middle) instant := by rw [head]; omega
      have same : Covers lower upper (first,last) instant ∧ ¬Between lower upper ((first,middle)::parts) instant ↔
          Covers lower upper (middle + 1,last) instant ∧ ¬Between lower upper parts instant := by
        rw [whole,tail,split]
        have outer : lower first ≤ instant := here.trans high
        simp only [outer,true_and,not_or,not_lt,high]
        exact ⟨fun ⟨before,after,apart⟩ => ⟨⟨after,before⟩,apart⟩,fun ⟨⟨after,before⟩,apart⟩ => ⟨before,after,apart⟩⟩
      simp [elsewhere,same]

end Bounds
end DayRanges
