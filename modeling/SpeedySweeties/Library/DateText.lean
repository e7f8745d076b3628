import SpeedySweeties.Library.Calendar
import SpeedySweeties.Library.JsText

/-! Dates as texts, months and days with two digits and a year with as many as it has. No two dates
have the same text, and one is only read back from the year 1000 on. -/
namespace Calendar
open JsText

/-- `${year}-${month}-${day}` -/
def plainDate (c : Civil) : String := toString c.year ++ "-" ++ padStart 2 (toString c.month) ++ "-" ++ padStart 2 (toString c.day)

/-- The value of a run of digits. -/
def number (digits : List Char) : Int := Nat.ofDigitChars 10 digits 0

theorem twoDigitsText (n : Fin 100) : (padStart 2 (toString (n.val : Int))).toList.length = 2 ∧
    number (padStart 2 (toString (n.val : Int))).toList = n.val := by
  revert n
  decide +kernel

theorem twoDigits {n : Int} (low : 0 ≤ n) (high : n < 100) :
    (padStart 2 (toString n)).toList.length = 2 ∧ number (padStart 2 (toString n)).toList = n := by
  obtain ⟨k,rfl⟩ := Int.eq_ofNat_of_zero_le low
  exact twoDigitsText ⟨k,by omega⟩

theorem civilDay (days : Int) : 1 ≤ (civilFromDays days).day ∧ (civilFromDays days).day ≤ 31 := by
  have low : 0 ≤ (days + 719468) % 146097 := Int.emod_nonneg _ (by decide)
  have high : (days + 719468) % 146097 < 146097 := Int.emod_lt_of_pos _ (by decide)
  obtain ⟨_,_,opens,closes⟩ := yearOfEraBounds low high
  simp only [civilShifted,shiftedDate]
  omega

theorem yearFromEra (days : Int) : (days + 719468)/146097*400 ≤ (civilFromDays days).year := by
  have low : 0 ≤ (days + 719468) % 146097 := Int.emod_nonneg _ (by decide)
  have high : (days + 719468) % 146097 < 146097 := Int.emod_lt_of_pos _ (by decide)
  obtain ⟨first,_,_,_⟩ := yearOfEraBounds low high
  simp only [civilShifted,shiftedDate]
  split <;> split <;> omega

theorem plainDateChars (c : Civil) : (plainDate c).toList =
    (toString c.year).toList ++ '-'::(padStart 2 (toString c.month)).toList ++ '-'::(padStart 2 (toString c.day)).toList := by
  have dash : "-".toList = ['-'] := String.toList_ofList
  simp only [plainDate,String.toList_append,dash,List.append_assoc,List.cons_append,List.nil_append]

theorem plainPieces {c : Civil} {front month day : List Char} (m : 0 ≤ c.month ∧ c.month < 100) (d : 0 ≤ c.day ∧ c.day < 100)
    (months : month.length = 2) (days : day.length = 2) (is : (plainDate c).toList = front ++ '-'::month ++ '-'::day) :
    front = (toString c.year).toList ∧ number month = c.month ∧ number day = c.day := by
  have text := plainDateChars c
  have sizeM := (twoDigits m.1 m.2).1
  have sizeD := (twoDigits d.1 d.2).1
  obtain ⟨early,ends⟩ := List.append_inj' (text.symm.trans is) (by simp only [List.length_cons,sizeD,days])
  obtain ⟨years,middles⟩ := List.append_inj' early (by simp only [List.length_cons,sizeM,months])
  refine ⟨years.symm,?_,?_⟩
  · rw [← (List.cons.inj middles).2,(twoDigits m.1 m.2).2]
  · rw [← (List.cons.inj ends).2,(twoDigits d.1 d.2).2]

theorem plainDateInjective {c c' : Civil} (m : 0 ≤ c.month ∧ c.month < 100) (d : 0 ≤ c.day ∧ c.day < 100)
    (m' : 0 ≤ c'.month ∧ c'.month < 100) (d' : 0 ≤ c'.day ∧ c'.day < 100) (same : plainDate c = plainDate c') : c = c' := by
  have text := plainDateChars c'
  rw [← same] at text
  obtain ⟨years,months,days⟩ := plainPieces m d (twoDigits m'.1 m'.2).1 (twoDigits d'.1 d'.2).1 text
  rw [(twoDigits m'.1 m'.2).2] at months
  rw [(twoDigits d'.1 d'.2).2] at days
  have year : c.year = c'.year := intText (String.toList_inj.mp years.symm)
  cases c
  cases c'
  simp_all

theorem plainDayInjective {a b : Int} (same : plainDate (civilFromDays a) = plainDate (civilFromDays b)) : a = b := by
  have bounds (days : Int) : (0 ≤ (civilFromDays days).month ∧ (civilFromDays days).month < 100) ∧
      0 ≤ (civilFromDays days).day ∧ (civilFromDays days).day < 100 := by
    have := civilMonth days
    have := civilDay days
    omega
  have dates := plainDateInjective (bounds a).1 (bounds a).2 (bounds b).1 (bounds b).2 same
  rw [← daysOfCivil a,dates,daysOfCivil]

theorem fourDigits {n : Nat} (long : (Nat.toDigits 10 n).length = 4) : 1000 ≤ n := by
  by_contra small
  rw [Nat.toDigits_eq_if (by decide)] at long
  split at long
  · simp at long
  rw [Nat.toDigits_eq_if (by decide)] at long
  split at long
  · simp at long
  rw [Nat.toDigits_eq_if (by decide),if_pos (by omega)] at long
  simp at long

theorem dateOnlyPlain {c c' : Civil} (m : 0 ≤ c.month ∧ c.month < 100) (d : 0 ≤ c.day ∧ c.day < 100)
    (is : dateOnly (plainDate c) = some c') : c' = c ∧ 1000 ≤ c.year := by
  unfold dateOnly at is
  split at is
  · rename_i y₁ y₂ y₃ y₄ m₁ m₂ d₁ d₂ text
    split at is
    · rename_i digits
      cases is
      obtain ⟨year,month,day⟩ := @plainPieces _ [y₁,y₂,y₃,y₄] [m₁,m₂] [d₁,d₂] m d rfl rfl text
      have low {x : Char} (h : x.isDigit = true) : 48 ≤ x.toNat := by
        simp only [Char.isDigit,Bool.and_eq_true,decide_eq_true_eq] at h
        exact h.1
      simp only [List.all_cons,List.all_nil,Bool.and_true,Bool.and_eq_true] at digits
      obtain ⟨l₁,l₂,l₃,l₄,l₅,l₆,l₇,l₈⟩ := digits
      obtain ⟨n,natural⟩ : ∃ n : Nat, c.year = n := by
        cases sign : c.year with
        | ofNat n => exact ⟨n,rfl⟩
        | negSucc n =>
          have minus : (toString c.year).toList = '-'::(toString (n + 1)).toList := by
            rw [sign,show toString (Int.negSucc n) = "-" ++ toString (n + 1) from rfl,String.toList_append]
            rfl
          rw [minus] at year
          rw [(List.cons.inj year).1] at l₁
          exact absurd l₁ (by decide)
      rw [natural,show (toString (n : Int)).toList = Nat.toDigits 10 n from Nat.toList_repr] at year
      have value : Nat.ofDigitChars 10 [y₁,y₂,y₃,y₄] 0 = n := by rw [year,Nat.ofDigitChars_ten_toDigits]
      have large := fourDigits (show (Nat.toDigits 10 n).length = 4 by rw [← year]; rfl)
      have := low l₁
      have := low l₂
      have := low l₃
      have := low l₄
      have := low l₅
      have := low l₆
      have := low l₇
      have := low l₈
      simp only [number,Nat.ofDigitChars_cons,Nat.ofDigitChars_nil,show '0'.toNat = 48 from rfl] at month day value
      refine ⟨?_,by omega⟩
      cases c
      simp only [Civil.mk.injEq] at *
      omega
    · cases is
  · cases is

end Calendar
