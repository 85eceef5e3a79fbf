/-
# Fixed-point numbers

A fixed-point program keeps a fraction `x / one` as the integer `x`. Its products are shifted
back, its quotients are rounded, and every result is cut to the width of a word. The rounding of
a division is a parameter that depends on the quotient only and is monotone in it, as C's
truncating and Python's flooring division are.
-/

import Mathlib.Algebra.Order.Ring.Abs
import Mathlib.Tactic.Linarith
import Mathlib.Tactic.Ring

namespace Aeos.Lib

/-- The value that a signed 32-bit variable holds after `x` is stored in it. -/
def int32 (x : Int) : Int := x.bmod (2 ^ 32)

lemma int32_of_abs_lt {x : Int} (hx : |x| < 2 ^ 31) : int32 x = x := by
  obtain ⟨hlow, hhigh⟩ := abs_lt.mp hx
  apply Int.bmod_eq_of_le <;> norm_num at * <;> omega

/-- A signed 32-bit variable can hold `x`. -/
def FitsInt32 (x : Int) : Prop := -2 ^ 31 ≤ x ∧ x < 2 ^ 31

lemma fitsInt32_of_abs_lt {x : Int} (hx : |x| < 2 ^ 31) : FitsInt32 x := by
  obtain ⟨hlow, hhigh⟩ := abs_lt.mp hx
  exact ⟨hlow.le, hhigh⟩

lemma fitsInt32_int32 (x : Int) : FitsInt32 (int32 x) :=
  ⟨Int.le_bmod (by decide), Int.bmod_lt (by decide)⟩

lemma int32_natCast_eq_iff (n : Nat) : int32 n = n ↔ n < 2 ^ 31 := by
  simp only [int32, Int.bmod]
  split_ifs <;> omega

/-- The product of two numbers with `bits` fractional bits. -/
def scaled (bits : Nat) (a b : Int) : Int := (a * b) >>> bits

lemma scaled_eq_ediv (bits : Nat) (a b : Int) : scaled bits a b = a * b / 2 ^ bits := by
  rw [scaled, Int.shiftRight_eq_div_pow]
  norm_cast

lemma abs_scaled_le {bits : Nat} {a b w v : Int} (ha : |a| ≤ w * 2 ^ bits) (hb : |b| ≤ v) :
  |scaled bits a b| ≤ w * v := by
  have hpos : (0 : Int) < 2 ^ bits := by positivity
  have hprod : |a * b| ≤ w * v * 2 ^ bits := by
    rw [abs_mul]
    calc |a| * |b| ≤ w * 2 ^ bits * v :=
          mul_le_mul ha hb (abs_nonneg b) (le_trans (abs_nonneg a) ha)
      _ = w * v * 2 ^ bits := by ring
  obtain ⟨hlow, hhigh⟩ := abs_le.mp hprod
  rw [scaled_eq_ediv, abs_le]
  constructor
  · rw [Int.le_ediv_iff_mul_le hpos]
    linarith
  have := Int.ediv_le_ediv hpos hhigh
  rwa [Int.mul_ediv_cancel _ hpos.ne'] at this

/-- A rounded division: monotone in the quotient, exact for the divisor one. -/
structure Rounding (div : Int → Int → Int) : Prop where
  mono : ∀ {a b c d : Int}, 0 < b → 0 < d → a * d ≤ c * b → div a b ≤ div c d
  exact : ∀ a : Int, div a 1 = a

lemma rounding_ediv : Rounding fun a b => a / b where
  mono := by
    intro a b c d hb hd h
    have hquot := Int.ediv_mul_le a hb.ne'
    have hscaled : a / b * d * b ≤ c * b := by
      calc a / b * d * b = a / b * b * d := by ring
        _ ≤ a * d := mul_le_mul_of_nonneg_right hquot hd.le
        _ ≤ c * b := h
    exact (Int.le_ediv_iff_mul_le hd).mpr (le_of_mul_le_mul_right hscaled hb)
  exact := Int.ediv_one

lemma rounding_tdiv : Rounding Int.tdiv where
  mono := by
    intro a b c d hb hd h
    rcases le_or_gt 0 a with ha | ha
    · have hc : 0 ≤ c := by
        by_contra hneg
        have hleft : 0 ≤ a * d := mul_nonneg ha hd.le
        have hright : c * b < 0 := mul_neg_of_neg_of_pos (not_le.mp hneg) hb
        omega
      rw [Int.tdiv_eq_ediv_of_nonneg ha, Int.tdiv_eq_ediv_of_nonneg hc]
      exact rounding_ediv.mono hb hd h
    rcases le_or_gt 0 c with hc | hc
    · -- A negative quotient is rounded up to zero at most.
      have hleft : 0 ≤ (-a).tdiv b := Int.tdiv_nonneg (by omega) hb.le
      have hright : 0 ≤ c.tdiv d := Int.tdiv_nonneg hc hd.le
      rw [Int.neg_tdiv] at hleft
      omega
    have hneg : (-c).tdiv d ≤ (-a).tdiv b := by
      rw [Int.tdiv_eq_ediv_of_nonneg (by omega), Int.tdiv_eq_ediv_of_nonneg (by omega)]
      exact rounding_ediv.mono hd hb (by linarith)
    rw [Int.neg_tdiv, Int.neg_tdiv] at hneg
    omega
  exact := Int.tdiv_one

/-- The two roundings differ on the quotients that are negative and not exact. -/
lemma tdiv_eq_ediv_iff {a b : Int} (hb : 0 < b) : a.tdiv b = a / b ↔ 0 ≤ a ∨ b ∣ a := by
  rw [Int.tdiv_eq_ediv, Int.sign_eq_one_of_pos hb]
  split_ifs with h
  · exact iff_of_true (add_zero _) h
  · exact iff_of_false (by omega) h

/-- `x / (1 + |x|)` in fixed point. -/
def softsign (div : Int → Int → Int) (one x : Int) : Int := div (x * one) (one + |x|)

section
variable {div : Int → Int → Int} {one x y : Int}

lemma softsign_denominator_pos (hone : 0 < one) (x : Int) : 0 < one + |x| := by
  have := abs_nonneg x
  omega

lemma softsign_mono (hdiv : Rounding div) (hone : 0 < one) (hxy : x ≤ y) :
  softsign div one x ≤ softsign div one y := by
  apply hdiv.mono (softsign_denominator_pos hone x) (softsign_denominator_pos hone y)
  -- The cross products differ by `x * |y| ≤ y * |x|`, a matter of the signs.
  have hcross : x * |y| ≤ y * |x| := by
    rcases abs_cases x with ⟨hx, _⟩ | ⟨hx, _⟩ <;> rcases abs_cases y with ⟨hy, _⟩ | ⟨hy, _⟩ <;>
      rw [hx, hy] <;> nlinarith
  calc x * one * (one + |y|) = one * (x * one + x * |y|) := by ring
    _ ≤ one * (y * one + y * |x|) :=
        mul_le_mul_of_nonneg_left (add_le_add (mul_le_mul_of_nonneg_right hxy hone.le) hcross)
          hone.le
    _ = y * one * (one + |x|) := by ring

lemma abs_softsign_le (hdiv : Rounding div) (hone : 0 < one) (x : Int) :
  |softsign div one x| ≤ one := by
  have hden := softsign_denominator_pos hone x
  rw [abs_le]
  constructor
  · rw [← hdiv.exact (-one)]
    apply hdiv.mono one_pos hden
    nlinarith [neg_abs_le x]
  conv_rhs => rw [← hdiv.exact one]
  apply hdiv.mono hden one_pos
  nlinarith [le_abs_self x]

lemma abs_softsign_tdiv_lt (hone : 0 < one) (x : Int) : |softsign Int.tdiv one x| < one := by
  have hden := softsign_denominator_pos hone x
  have hnonneg : ∀ y, 0 ≤ y → y ≤ |x| → |(y * one).tdiv (one + |x|)| < one := by
    intro y hy hyx
    have hprod : 0 ≤ y * one := mul_nonneg hy hone.le
    rw [Int.tdiv_eq_ediv_of_nonneg hprod, abs_of_nonneg (Int.ediv_nonneg hprod hden.le)]
    apply Int.ediv_lt_of_lt_mul hden
    nlinarith
  rcases le_or_gt 0 x with hx | hx
  · exact hnonneg x hx (le_abs_self x)
  have hneg := hnonneg (-x) (by omega) (neg_le_abs x)
  rwa [neg_mul, Int.neg_tdiv, abs_neg] at hneg

lemma softsign_zero (one : Int) : softsign Int.tdiv one 0 = 0 := by
  rw [softsign, zero_mul, Int.zero_tdiv]

lemma softsign_neg (one x : Int) : softsign Int.tdiv one (-x) = -softsign Int.tdiv one x := by
  rw [softsign, softsign, abs_neg, neg_mul, Int.neg_tdiv]

lemma softsign_tdiv_eq_ediv_iff (hone : 0 < one) (x : Int) :
  softsign Int.tdiv one x = softsign (fun a b => a / b) one x ↔ 0 ≤ x ∨ one + |x| ∣ x * one := by
  rw [softsign, softsign, tdiv_eq_ediv_iff (softsign_denominator_pos hone x),
    mul_nonneg_iff_of_pos_right hone]

end
end Aeos.Lib
