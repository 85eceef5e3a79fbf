/-
# Masks on natural numbers

Machine words are natural numbers here, and the source splits them with masks.
The lemmas turn the masks that occur in address arithmetic into division,
remainder and sum, where `omega` and the `Nat` library take over.
-/

import Mathlib.Data.Nat.Bitwise

namespace Aeos.Lib

/-- The bits `lo, …, hi - 1`. With `hi = 64` this is the complement of a low mask
in a 64-bit word. -/
def bitsFrom (lo hi : Nat) : Nat := 2 ^ hi - 2 ^ lo

lemma testBit_bitsFrom {lo hi : Nat} (hle : lo ≤ hi) (i : Nat) :
  (bitsFrom lo hi).testBit i = (decide (i < hi) && !decide (i < lo)) := by
  have hpow : 2 ^ lo ≤ 2 ^ hi := Nat.pow_le_pow_right (by decide) hle
  have hpos : 0 < 2 ^ lo := Nat.two_pow_pos lo
  have hform : bitsFrom lo hi = 2 ^ hi - ((2 ^ lo - 1) + 1) := by
    unfold bitsFrom
    omega
  rw [hform, Nat.testBit_two_pow_sub_succ (by omega), Nat.testBit_two_pow_sub_one]

lemma and_bitsFrom {lo hi : Nat} (hle : lo ≤ hi) (x : Nat) :
  x &&& bitsFrom lo hi = x % 2 ^ hi / 2 ^ lo * 2 ^ lo := by
  apply Nat.eq_of_testBit_eq
  intro i
  rw [Nat.testBit_and, testBit_bitsFrom hle, Nat.mul_comm, Nat.testBit_two_pow_mul]
  by_cases hlo : lo ≤ i
  · simp only [hlo, Nat.testBit_div_two_pow, Nat.sub_add_cancel hlo, Nat.testBit_mod_two_pow,
      not_lt.mpr hlo]
    cases x.testBit i <;> simp
  · simp [hlo, Nat.lt_of_not_le hlo]

lemma or_of_aligned {x low k : Nat} (hx : x % 2 ^ k = 0) (hlow : low < 2 ^ k) :
  x ||| low = x + low := by
  obtain ⟨q, rfl⟩ := Nat.dvd_of_mod_eq_zero hx
  exact (Nat.two_pow_add_eq_or_of_lt hlow q).symm

lemma aligned_add_and_bitsFrom {x low k hi : Nat} (hle : k ≤ hi) (hx : x % 2 ^ k = 0)
  (hlow : low < 2 ^ k) (hbound : x < 2 ^ hi) : (x + low) &&& bitsFrom k hi = x := by
  obtain ⟨q, rfl⟩ := Nat.dvd_of_mod_eq_zero hx
  have hfit : 2 ^ k * q + low < 2 ^ hi := by
    have hsplit : 2 ^ hi = 2 ^ k * 2 ^ (hi - k) := by
      rw [← Nat.pow_add, Nat.add_sub_cancel' hle]
    have hq : q < 2 ^ (hi - k) := by
      rw [hsplit] at hbound
      exact Nat.lt_of_mul_lt_mul_left hbound
    calc 2 ^ k * q + low < 2 ^ k * q + 2 ^ k := by omega
      _ = 2 ^ k * (q + 1) := by rw [Nat.mul_succ]
      _ ≤ 2 ^ k * 2 ^ (hi - k) := Nat.mul_le_mul_left _ hq
      _ = 2 ^ hi := hsplit.symm
  rw [and_bitsFrom hle, Nat.mod_eq_of_lt hfit, Nat.mul_add_div (Nat.two_pow_pos k),
    Nat.div_eq_of_lt hlow, Nat.add_zero, Nat.mul_comm]

/-- The least multiple of `align` from `x` on. -/
def alignUp (x align : Nat) : Nat := (x + align - 1) / align * align

section
variable {x align : Nat}

lemma le_alignUp (hpos : 0 < align) : x ≤ alignUp x align := by
  have hdiv := Nat.div_add_mod (x + align - 1) align
  have hmod := Nat.mod_lt (x + align - 1) hpos
  rw [Nat.mul_comm] at hdiv
  unfold alignUp
  omega

lemma alignUp_lt (hpos : 0 < align) : alignUp x align < x + align := by
  have hdiv := Nat.div_mul_le_self (x + align - 1) align
  unfold alignUp
  omega

lemma dvd_alignUp : align ∣ alignUp x align := Nat.dvd_mul_left _ _

lemma alignUp_le {bound : Nat} (hpos : 0 < align) (hbound : align ∣ bound) (hx : x ≤ bound) :
  alignUp x align ≤ bound := by
  obtain ⟨q, rfl⟩ := hbound
  obtain ⟨r, hr⟩ : align ∣ alignUp x align := dvd_alignUp
  have hlt : align * r < align * (q + 1) := by
    calc align * r = alignUp x align := hr.symm
      _ < x + align := alignUp_lt hpos
      _ ≤ align * (q + 1) := by rw [Nat.mul_succ]; omega
  rw [hr]
  exact Nat.mul_le_mul_left _ (Nat.le_of_lt_succ (Nat.lt_of_mul_lt_mul_left hlt))

lemma alignUp_eq_self_iff (hpos : 0 < align) : alignUp x align = x ↔ align ∣ x := by
  constructor
  · intro heq
    rw [← heq]
    exact dvd_alignUp
  intro hdvd
  exact Nat.le_antisymm (alignUp_le hpos hdvd le_rfl) (le_alignUp hpos)

lemma two_pow_dvd_alignUp {j k : Nat} (hx : 2 ^ j ∣ x) : 2 ^ j ∣ alignUp x (2 ^ k) := by
  rcases Nat.le_total j k with hle | hle
  · exact (Nat.pow_dvd_pow 2 hle).trans dvd_alignUp
  have hfine : 2 ^ k ∣ x := (Nat.pow_dvd_pow 2 hle).trans hx
  rwa [(alignUp_eq_self_iff (Nat.two_pow_pos k)).mpr hfine]

lemma add_and_bitsFrom_eq_alignUp {k hi : Nat} (hle : k ≤ hi) (hbound : x + 2 ^ k - 1 < 2 ^ hi) :
  (x + 2 ^ k - 1) &&& bitsFrom k hi = alignUp x (2 ^ k) := by
  rw [and_bitsFrom hle, Nat.mod_eq_of_lt hbound, alignUp]

end

/-! ## Bitmaps packed in words: bit `i` is bit `i % w` of word `i / w` -/

open BitVec Function

/-- The words of a bitmap. -/
abbrev Words (w : Nat) := Nat → BitVec w

namespace Words

variable {w : Nat}

def test (b : Words w) (i : Nat) : Bool := (b (i / w)).getLsbD (i % w)

def set (b : Words w) (i : Nat) : Words w :=
  update b (i / w) (b (i / w) ||| 1#w <<< (i % w))

def clear (b : Words w) (i : Nat) : Words w :=
  update b (i / w) (b (i / w) &&& ~~~(1#w <<< (i % w)))

variable {i : Nat} {x : BitVec w}

lemma getLsbD_one_shiftLeft {j : Nat} (hi : i < w) : (1#w <<< i).getLsbD j = decide (j = i) := by
  rw [← twoPow_eq, getLsbD_twoPow]
  simp only [hi, decide_true, Bool.true_and, decide_eq_decide]
  exact eq_comm

lemma and_one_shiftLeft (hi : i < w) : x &&& 1#w <<< i ≠ 0#w ↔ x.getLsbD i = true := by
  rw [← twoPow_eq, and_twoPow]
  split_ifs with hbit
  · have hne : BitVec.twoPow w i ≠ 0#w := fun hzero => by
      have hlow := congrArg (fun y : BitVec w => y.getLsbD i) hzero
      simp [hi] at hlow
    simp [hbit, hne]
  · simp [hbit]

lemma shiftRight_and_one (hw : 0 < w) : x >>> i &&& 1#w ≠ 0#w ↔ x.getLsbD i = true := by
  have hmask := and_one_shiftLeft (x := x >>> i) hw
  rwa [shiftLeft_zero, getLsbD_ushiftRight, Nat.add_zero] at hmask

lemma mod_eq_iff {j : Nat} (hword : j / w = i / w) : j % w = i % w ↔ j = i := by
  refine ⟨fun hmod => ?_, fun heq => by rw [heq]⟩
  rw [← Nat.div_add_mod j w, hword, hmod, Nat.div_add_mod]

lemma test_set (hw : 0 < w) (b : Words w) (i j : Nat) :
  test (set b i) j = (decide (j = i) || test b j) := by
  unfold test set
  by_cases hword : j / w = i / w
  · rw [hword, update_self, getLsbD_or,
      getLsbD_one_shiftLeft (Nat.mod_lt i hw), Bool.or_comm]
    simp only [mod_eq_iff hword]
  have hne : j ≠ i := fun heq => hword (by rw [heq])
  rw [update_of_ne hword]
  simp [hne]

lemma test_clear (hw : 0 < w) (b : Words w) (i j : Nat) :
  test (clear b i) j = (!decide (j = i) && test b j) := by
  unfold test clear
  by_cases hword : j / w = i / w
  · rw [hword, update_self, getLsbD_and, getLsbD_not,
      getLsbD_one_shiftLeft (Nat.mod_lt i hw), Bool.and_comm]
    simp only [mod_eq_iff hword, Nat.mod_lt j hw, decide_true, Bool.true_and]
  have hne : j ≠ i := fun heq => hword (by rw [heq])
  rw [update_of_ne hword]
  simp [hne]

lemma test_mul_add (b : Words w) {k : Nat} (hi : i < w) : test b (k * w + i) = (b k).getLsbD i := by
  have hpos : 0 < w := Nat.zero_lt_of_lt hi
  unfold test
  rw [Nat.mul_comm k w, Nat.mul_add_div hpos, Nat.div_eq_of_lt hi, Nat.mul_add_mod,
    Nat.mod_eq_of_lt hi, Nat.add_zero]

lemma test_of_word_eq_zero {b : Words w} (hzero : b (i / w) = 0#w) : test b i = false := by
  rw [test, hzero]
  simp

lemma ctz_toNat_lt (hne : x ≠ 0#w) : x.ctz.toNat < w := by
  by_contra hle
  have hset := getLsbD_true_ctz_of_ne_zero hne
  rw [getLsbD_of_ge _ _ (Nat.not_lt.mp hle)] at hset
  cases hset

lemma test_ctz {b : Words w} {k : Nat} (hne : b k ≠ 0#w) :
  test b (k * w + (b k).ctz.toNat) = true := by
  rw [test_mul_add b (ctz_toNat_lt hne)]
  exact getLsbD_true_ctz_of_ne_zero hne

end Words
end Aeos.Lib
