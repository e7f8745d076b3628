import Mathlib.Data.Nat.Log
import Mathlib.Tactic.Ring

/-! Numbers that are not negative, as JavaScript computes with them. A number counts units of
`2 ^ -1074`, of which every finite one is a whole multiple, so the exact results of the operations
are fractions of natural numbers that are rounded once. -/

abbrev Binary64 := Nat

namespace Binary64

/-- The fraction `a / d` to the nearest integer, a tie to the even one. -/
def nearest (a d : Nat) : Nat := if 2*(a % d) < d ∨ (2*(a % d) = d ∧ a/d % 2 = 0) then a/d else a/d + 1

/-- What the last of the 53 binary digits of `a / d` counts. -/
def unit (a d : Nat) : Nat := 2^((a/d).log2 - 52)

/-- The number nearest to `a / d` units. -/
def rounded (a d : Nat) : Binary64 := nearest a (d*unit a d)*unit a d

def scale : Nat := 2^1074

/-- The number that a decimal fraction stands for. -/
def fraction (a d : Nat) : Binary64 := rounded (a*scale) d
def ofNat (n : Nat) : Binary64 := fraction n 1
def one : Binary64 := scale
def add (x y : Binary64) : Binary64 := rounded (x + y) 1
/-- The difference of a number and one that is not greater. -/
def sub (x y : Binary64) : Binary64 := rounded (x - y) 1
def mul (x y : Binary64) : Binary64 := rounded (x*y) scale
def div (x y : Binary64) : Binary64 := rounded (x*scale) y

/-- From here on rounding gives an infinity. -/
def infinite (x : Binary64) : Bool := 2^1024*scale ≤ x

/-- `Math.round(x)` -/
def mathRound (x : Binary64) : Nat := (2*x + scale)/(2*scale)

/-- `10 ^ n` as the exponent of a decimal counts. -/
def digitCount (n : Nat) : Nat := (toString n).length

/-- The shortest decimal digits that stand for the number, with the power of ten that they count. -/
def shortest (n : Nat) : Nat × Nat :=
  let candidates := (List.range (digitCount n)).reverse.map fun zeros => (nearest n (10^zeros),zeros)
  (candidates.find? fun candidate => ofNat (candidate.1*10^candidate.2) = ofNat n).getD (n,0)

/-- `String(x)` of a whole number. -/
def wholeText (n : Nat) : String :=
  if infinite (ofNat n) then "Infinity"
  else
    let (digits,zeros) := shortest n
    let text := toString digits
    if digitCount n ≤ 21 then text ++ String.ofList (List.replicate zeros '0')
    else
      let mantissa := match text.toList with
        | [] => []
        | [first] => [first]
        | first::rest => first :: '.' :: rest
      String.ofList mantissa ++ "e+" ++ toString (text.length + zeros - 1)

-- Half a unit more is lost in the product.
example : mathRound (mul (fraction 5005 10000) (ofNat 1000)) = 500 := by decide +kernel
example : wholeText (2^60) = "1152921504606847000" := by decide +kernel
example : wholeText (10^21) = "1e+21" := by decide +kernel

/-! ### Rounding keeps the order -/

theorem nearestLower {n a d : Nat} (positive : 0 < d) (le : n*d ≤ a) : n ≤ nearest a d := by
  have least : n ≤ a/d := (Nat.le_div_iff_mul_le positive).mpr le
  unfold nearest
  split <;> omega

theorem nearestUpper {n a d : Nat} (positive : 0 < d) (le : a ≤ n*d) : nearest a d ≤ n := by
  have most : a/d ≤ n := Nat.div_le_of_le_mul (by rwa [Nat.mul_comm])
  unfold nearest
  split
  · exact most
  · rename_i more
    by_cases whole : a/d = n
    · have parts := Nat.div_add_mod a d
      rw [whole,Nat.mul_comm] at parts
      have none_ : a % d = 0 := by omega
      exact absurd (.inl (by rw [none_]; omega)) more
    · omega

theorem nearestMono {a b d : Nat} (le : a ≤ b) : nearest a d ≤ nearest b d := by
  have quotients : a/d ≤ b/d := Nat.div_le_div_right le
  by_cases same : a/d = b/d
  · have remainders : a % d ≤ b % d := by
      have first := Nat.div_add_mod a d
      have second := Nat.div_add_mod b d
      rw [same] at first
      omega
    unfold nearest
    rw [same]
    split <;> split <;> omega
  · have below : nearest a d ≤ a/d + 1 := by
      unfold nearest
      split <;> omega
    have above : b/d ≤ nearest b d := by
      unfold nearest
      split <;> omega
    omega

theorem unitPositive (a d : Nat) : 0 < unit a d := Nat.two_pow_pos _

theorem roundedMono {a b d : Nat} (positive : 0 < d) (le : a ≤ b) : rounded a d ≤ rounded b d := by
  have logs : (a/d).log2 ≤ (b/d).log2 := by
    rw [Nat.log2_eq_log_two,Nat.log2_eq_log_two]
    exact Nat.log_mono_right (Nat.div_le_div_right le)
  unfold rounded
  by_cases same : unit a d = unit b d
  · rw [same]
    exact Nat.mul_le_mul_right _ (nearestMono le)
  · -- The greater one has more digits, and the power of two between them is a number too.
    have more : (a/d).log2 < (b/d).log2 ∧ 52 < (b/d).log2 := by
      unfold unit at same
      by_contra few
      exact same (congrArg (2^·) (by omega))
    have power : 2^(b/d).log2 = 2^52*unit b d := by
      rw [unit,← Nat.pow_add]
      congr 1
      omega
    have smaller : 2^(b/d).log2 = 2^((b/d).log2 - ((a/d).log2 - 52))*unit a d := by
      rw [unit,← Nat.pow_add]
      congr 1
      omega
    calc nearest a (d*unit a d)*unit a d ≤ 2^(b/d).log2 := by
          rw [smaller]
          refine Nat.mul_le_mul_right _ (nearestUpper (Nat.mul_pos positive (unitPositive a d)) ?_)
          have below : a/d < 2^(b/d).log2 := lt_of_lt_of_le Nat.lt_log2_self (Nat.pow_le_pow_right (by decide) more.1)
          calc a ≤ 2^(b/d).log2*d := Nat.le_of_lt ((Nat.div_lt_iff_lt_mul positive).mp below)
            _ = 2^((b/d).log2 - ((a/d).log2 - 52))*(d*unit a d) := by
              rw [smaller]
              ring
      _ ≤ nearest b (d*unit b d)*unit b d := by
          rw [power]
          refine Nat.mul_le_mul_right _ (nearestLower (Nat.mul_pos positive (unitPositive b d)) ?_)
          have nonzero : b/d ≠ 0 := by
            intro zero
            rw [zero] at more
            exact absurd more.2 (by decide)
          have above : 2^(b/d).log2 ≤ b/d := Nat.log2_self_le nonzero
          calc 2^52*(d*unit b d) = 2^(b/d).log2*d := by
                rw [power]
                ring
            _ ≤ b := (Nat.le_div_iff_mul_le positive).mp above

theorem roundedUpper {a d : Nat} {x : Binary64} (positive : 0 < d) (exact : rounded (x*d) d = x) (le : a ≤ x*d) : rounded a d ≤ x :=
  exact ▸ roundedMono positive le

/-- The last of the 53 digits of one. -/
def lastOfOne : Nat := 2^1022

theorem scaleDigits : scale = 2^52*lastOfOne := by
  have exponents : 1074 = 52 + 1022 := rfl
  unfold scale lastOfOne
  -- An exponent of this size is not to be evaluated.
  generalize 1022 = rest at *
  rw [exponents,Nat.pow_add]

theorem divSelf {y : Binary64} (positive : 0 < y) : rounded (scale*y) y = scale := by
  have quotient : scale*y/y = scale := Nat.mul_div_cancel _ positive
  have last : unit (scale*y) y = lastOfOne := by
    have exponent : 1074 - 52 = 1022 := rfl
    rw [unit,quotient,scale,Nat.log2_two_pow]
    exact congrArg (2^·) exponent
  have whole : scale*y = 2^52*(y*lastOfOne) := by rw [scaleDigits,Nat.mul_assoc,Nat.mul_comm y]
  have powers : ∀ exponent, 0 < 2^exponent := Nat.two_pow_pos
  have parts : 0 < y*lastOfOne := Nat.mul_pos positive (powers _)
  rw [rounded,last,nearest,whole,Nat.mul_mod_left,if_pos (.inl (by simpa using parts)),Nat.mul_div_cancel _ parts,scaleDigits]

theorem divMost {x y : Binary64} (le : x ≤ y) (positive : 0 < y) : div x y ≤ one :=
  roundedUpper positive (divSelf positive) (by
    rw [Nat.mul_comm one y]
    exact Nat.mul_le_mul_right _ le)

theorem ofNatMono {m n : Nat} (le : m ≤ n) : ofNat m ≤ ofNat n := roundedMono (by decide) (Nat.mul_le_mul_right _ le)

theorem addLeast (x y z : Binary64) : add x (min y z) ≤ add x y := roundedMono (by decide) (Nat.add_le_add_left (Nat.min_le_left y z) x)

theorem subMono {x y z : Binary64} (le : y ≤ z) : sub x z ≤ sub x y := roundedMono (by decide) (Nat.sub_le_sub_left le x)

theorem subSelf (x : Binary64) : sub x x = 0 := by
  rw [sub,Nat.sub_self]
  decide

end Binary64
