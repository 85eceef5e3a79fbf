/-
# Two-layer networks over integers

A hidden layer of squashed weighted sums, an output layer of clamped ones, and the index of the
first largest output. The arithmetic is a parameter, so that two implementations agree is a
statement about their arithmetic on the numbers that occur.
-/

import Aeos.Lib.FixedPoint
import Mathlib.Algebra.BigOperators.Fin

namespace Aeos.Lib

open List

/-- The operations a network is computed with. -/
structure NetOps where
  mul : Int → Int → Int
  add : Int → Int → Int
  squash : Int → Int
  clamp : Int → Int

/-- The numbers of a network with `n` inputs, `h` hidden neurons and `m` outputs. -/
structure Net (n h m : Nat) where
  w1 : Fin h → Fin n → Int
  b1 : Fin h → Int
  w2 : Fin m → Fin h → Int
  b2 : Fin m → Int

/-- A bias and the weighted inputs, added from left to right. -/
def NetOps.weigh {n : Nat} (ops : NetOps) (bias : Int) (w x : Fin n → Int) : Int :=
  (List.finRange n).foldl (fun s j => ops.add s (ops.mul (w j) (x j))) bias

/-- What a sum over `js` stores in words: every product, and every sum on the way. -/
def NetOps.sumStores {n : Nat} (ops : NetOps) (bits : Nat) (w x : Fin n → Int) :
  Int → List (Fin n) → List Int
  | _, [] => []
  | s, j :: js =>
    scaled bits (w j) (x j) :: (s + ops.mul (w j) (x j)) ::
      ops.sumStores bits w x (ops.add s (ops.mul (w j) (x j))) js

/-- Scanning `js` for an entry above `best`, from left to right. -/
def scanMax {m : Nat} (out : Fin m → Int) (best : Fin m) (js : List (Fin m)) : Fin m :=
  js.foldl (fun best j => if out best < out j then j else best) best

/-- The index of the first largest entry. -/
def firstMax {m : Nat} (out : Fin (m + 1) → Int) : Fin (m + 1) :=
  scanMax out 0 (List.finRange (m + 1))

namespace Net

variable {n h m : Nat}

def hidden (ops : NetOps) (net : Net n h m) (x : Fin n → Int) (i : Fin h) : Int :=
  ops.squash (ops.weigh (net.b1 i) (net.w1 i) x)

def outputs (ops : NetOps) (net : Net n h m) (x : Fin n → Int) (j : Fin m) : Int :=
  ops.clamp (ops.weigh (net.b2 j) (net.w2 j) (net.hidden ops x))

def decide (ops : NetOps) (net : Net n h (m + 1)) (x : Fin n → Int) : Fin (m + 1) :=
  firstMax (net.outputs ops x)

/-- What the two layers store in words, where squashing a sum stores `squashStores` of it. -/
def stores (ops : NetOps) (bits : Nat) (squashStores : Int → List Int) (net : Net n h m)
  (x : Fin n → Int) : List Int :=
  (List.finRange h).flatMap (fun i =>
    ops.sumStores bits (net.w1 i) x (net.b1 i) (List.finRange n) ++
      squashStores (ops.weigh (net.b1 i) (net.w1 i) x)) ++
  (List.finRange m).flatMap fun j =>
    ops.sumStores bits (net.w2 j) (net.hidden ops x) (net.b2 j) (List.finRange h)

end Net

section
variable {m : Nat}

lemma le_scanMax (out : Fin m → Int) (js : List (Fin m)) (best : Fin m) :
  out best ≤ out (scanMax out best js) ∧ ∀ j ∈ js, out j ≤ out (scanMax out best js) := by
  induction js generalizing best with
  | nil => exact ⟨le_refl _, fun j hj => absurd hj not_mem_nil⟩
  | cons j js ih =>
    obtain ⟨hstart, hrest⟩ := ih (if out best < out j then j else best)
    have hkept : out best ≤ out (if out best < out j then j else best) ∧
        out j ≤ out (if out best < out j then j else best) := by
      split_ifs with hlt
      · exact ⟨hlt.le, le_refl _⟩
      · exact ⟨le_refl _, not_lt.mp hlt⟩
    refine ⟨hkept.1.trans hstart, fun i hi => ?_⟩
    rcases mem_cons.mp hi with rfl | hi
    · exact hkept.2.trans hstart
    · exact hrest i hi

lemma scanMax_eq_or_lt (out : Fin m → Int) (js : List (Fin m)) (best : Fin m) :
  scanMax out best js = best ∨ out best < out (scanMax out best js) := by
  induction js generalizing best with
  | nil => exact .inl rfl
  | cons j js ih =>
    rw [scanMax, foldl_cons]
    split_ifs with hlt
    · exact .inr (lt_of_lt_of_le hlt (le_scanMax out js j).1)
    · exact ih best

variable {out : Fin (m + 1) → Int}

lemma le_firstMax (out : Fin (m + 1) → Int) (i : Fin (m + 1)) : out i ≤ out (firstMax out) :=
  (le_scanMax out _ 0).2 i (mem_finRange i)

variable {j : Fin (m + 1)}

lemma firstMax_eq (hj : ∀ i, i ≠ j → out i < out j) : firstMax out = j := by
  by_contra hne
  exact absurd (le_firstMax out j) (not_le.mpr (hj _ hne))

lemma lt_of_firstMax_eq (hj : firstMax out = j) (hne : j ≠ 0) : out 0 < out j := by
  rcases scanMax_eq_or_lt out (List.finRange (m + 1)) 0 with hzero | hlt
  · exact absurd (hj.symm.trans hzero) hne
  · rwa [← firstMax, hj] at hlt

end

section
variable {n : Nat} {ops : NetOps}

/-- Two implementations agree on a sum when their small products and sums are the same. -/
lemma weigh_congr {ops' : NetOps} {p limit bias : Int} {w x : Fin n → Int}
  (hmul : ∀ j, ops.mul (w j) (x j) = ops'.mul (w j) (x j))
  (hsmall : ∀ j, |ops'.mul (w j) (x j)| ≤ p)
  (hadd : ∀ s q, |s + q| ≤ limit → ops.add s q = s + q) (hadd' : ∀ s q, ops'.add s q = s + q)
  (hlimit : |bias| + n * p ≤ limit) :
  ops.weigh bias w x = ops'.weigh bias w x ∧ |ops'.weigh bias w x| ≤ |bias| + n * p := by
  have hfold : ∀ (js : List (Fin n)) (s : Int), |s| + js.length * p ≤ limit →
      js.foldl (fun s j => ops.add s (ops.mul (w j) (x j))) s =
          js.foldl (fun s j => ops'.add s (ops'.mul (w j) (x j))) s ∧
        |js.foldl (fun s j => ops'.add s (ops'.mul (w j) (x j))) s| ≤ |s| + js.length * p := by
    intro js
    induction js with
    | nil =>
      intro s _
      simp
    | cons j js ih =>
      intro s hs
      have hp : 0 ≤ p := le_trans (abs_nonneg _) (hsmall j)
      have hrest : 0 ≤ (js.length : Int) * p := mul_nonneg (Int.natCast_nonneg _) hp
      have hstep : |s + ops'.mul (w j) (x j)| ≤ |s| + p :=
        (abs_add_le _ _).trans (add_le_add_right (hsmall j) _)
      rw [length_cons, Nat.cast_add, Nat.cast_one, add_mul, one_mul] at hs ⊢
      obtain ⟨heq, hle⟩ := ih (s + ops'.mul (w j) (x j)) (by linarith)
      rw [foldl_cons, foldl_cons, hmul j, hadd _ _ (by linarith), hadd']
      exact ⟨heq, by linarith⟩
  have := hfold (List.finRange n) bias
  rw [length_finRange] at this
  exact this hlimit

lemma weigh_zero {w x : Fin n → Int} (hw : ∀ j, w j = 0) (hmul : ∀ y, ops.mul 0 y = 0)
  (hadd : ops.add 0 0 = 0) : ops.weigh 0 w x = 0 := by
  rw [NetOps.weigh]
  induction List.finRange n with
  | nil => rfl
  | cons j js ih => rw [foldl_cons, hw, hmul, hadd, ih]

end

/-- Unbounded arithmetic with `bits` fractional bits, outputs held between two bounds. -/
def exactOps (bits : Nat) (div : Int → Int → Int) (lo hi : Int) : NetOps where
  mul := scaled bits
  add s p := s + p
  squash := softsign div (2 ^ bits)
  clamp x := max lo (min hi x)

/-- `ops` computes as `exactOps` does, cut to 32 bits, as long as a squashed number is
below `2 ^ 30`. -/
structure InWords (ops : NetOps) (bits : Nat) (div : Int → Int → Int) (lo hi : Int) : Prop where
  mul : ∀ a b, ops.mul a b = int32 (scaled bits a b)
  add : ∀ s p, ops.add s p = int32 (s + p)
  squash : ∀ x, |x| < 2 ^ 30 → ops.squash x = softsign div (2 ^ bits) x
  clamp : ∀ x, ops.clamp x = max lo (min hi x)

section
variable {n h m bits : Nat} {ops : NetOps} {div : Int → Int → Int} {lo hi : Int}

lemma InWords.weigh (hops : InWords ops bits div lo hi) {bias w v : Int} {ws xs : Fin n → Int}
  (hws : ∀ j, |ws j| ≤ w * 2 ^ bits) (hxs : ∀ j, |xs j| ≤ v)
  (hlimit : |bias| + n * (w * v) < 2 ^ 30) :
  ops.weigh bias ws xs = (exactOps bits div lo hi).weigh bias ws xs ∧
    |(exactOps bits div lo hi).weigh bias ws xs| < 2 ^ 30 := by
  have hsmall : ∀ j, |scaled bits (ws j) (xs j)| ≤ w * v := fun j => abs_scaled_le (hws j) (hxs j)
  have hword : ∀ x : Int, |x| ≤ |bias| + n * (w * v) → int32 x = x := by
    intro x hx
    apply int32_of_abs_lt
    linarith
  have hmul : ∀ j, ops.mul (ws j) (xs j) = (exactOps bits div lo hi).mul (ws j) (xs j) := by
    intro j
    rw [hops.mul]
    apply hword
    have hpos : 0 < (n : Int) := by
      have := j.isLt
      omega
    have hp : 0 ≤ w * v := le_trans (abs_nonneg _) (hsmall j)
    have hone := le_mul_of_one_le_left hp hpos
    have := hsmall j
    have := abs_nonneg bias
    linarith
  have hboth : ops.weigh bias ws xs = (exactOps bits div lo hi).weigh bias ws xs ∧ _ :=
    weigh_congr hmul hsmall (fun s q hsq => (hops.add s q).trans (hword _ hsq)) (fun _ _ => rfl)
      (le_refl _)
  exact ⟨hboth.1, lt_of_le_of_lt hboth.2 hlimit⟩

variable {net : Net n h m} {x : Fin n → Int} {w v : Int} (hops : InWords ops bits div lo hi)
include hops

lemma InWords.hidden {i : Fin h} (hw : ∀ j, |net.w1 i j| ≤ w * 2 ^ bits) (hx : ∀ j, |x j| ≤ v)
  (hlimit : |net.b1 i| + n * (w * v) < 2 ^ 30) :
  net.hidden ops x i = net.hidden (exactOps bits div lo hi) x i := by
  obtain ⟨heq, hsmall⟩ := hops.weigh hw hx hlimit
  rw [Net.hidden, Net.hidden, heq, hops.squash _ hsmall]
  rfl

/-- A network whose sums stay below `2 ^ 30` computes in words what it computes exactly. -/
lemma InWords.outputs (hdiv : Rounding div) (hw1 : ∀ i j, |net.w1 i j| ≤ w * 2 ^ bits)
  (hw2 : ∀ j i, |net.w2 j i| ≤ w * 2 ^ bits) (hx : ∀ j, |x j| ≤ v)
  (hlimit1 : ∀ i, |net.b1 i| + n * (w * v) < 2 ^ 30)
  (hlimit2 : ∀ j, |net.b2 j| + h * (w * 2 ^ bits) < 2 ^ 30) :
  net.outputs ops x = net.outputs (exactOps bits div lo hi) x := by
  funext j
  have hhidden : net.hidden ops x = net.hidden (exactOps bits div lo hi) x := by
    funext i
    exact hops.hidden (hw1 i) hx (hlimit1 i)
  have hbound : ∀ i, |net.hidden (exactOps bits div lo hi) x i| ≤ 2 ^ bits := by
    intro i
    exact abs_softsign_le hdiv (by positivity) _
  rw [Net.outputs, Net.outputs, hhidden, (hops.weigh (hw2 j) hbound (hlimit2 j)).1, hops.clamp]
  rfl

lemma InWords.sumStores_fit {ws xs : Fin n → Int} (hws : ∀ j, |ws j| ≤ w * 2 ^ bits)
  (hxs : ∀ j, |xs j| ≤ v) {js : List (Fin n)} {s : Int}
  (hlimit : |s| + js.length * (w * v) < 2 ^ 30) :
  ∀ y ∈ ops.sumStores bits ws xs s js, FitsInt32 y := by
  induction js generalizing s with
  | nil => exact fun y hy => absurd hy not_mem_nil
  | cons j js ih =>
    have hsmall := abs_scaled_le (hws j) (hxs j)
    have hrest : 0 ≤ (js.length : Int) * (w * v) :=
      mul_nonneg (Int.natCast_nonneg _) (le_trans (abs_nonneg _) hsmall)
    rw [length_cons, Nat.cast_add, Nat.cast_one, add_mul, one_mul] at hlimit
    have hs := abs_nonneg s
    have hproduct : |scaled bits (ws j) (xs j)| < 2 ^ 31 := by omega
    have hmul : ops.mul (ws j) (xs j) = scaled bits (ws j) (xs j) := by
      rw [hops.mul, int32_of_abs_lt hproduct]
    have hsum : |s + scaled bits (ws j) (xs j)| ≤ |s| + w * v :=
      (abs_add_le _ _).trans (add_le_add_right hsmall _)
    have hadd : ops.add s (scaled bits (ws j) (xs j)) = s + scaled bits (ws j) (xs j) := by
      rw [hops.add, int32_of_abs_lt (by omega)]
    rw [NetOps.sumStores, hmul, hadd]
    intro y hy
    rcases mem_cons.mp hy with rfl | hy
    · exact fitsInt32_of_abs_lt hproduct
    rcases mem_cons.mp hy with rfl | hy
    · exact fitsInt32_of_abs_lt (by omega)
    · exact ih (by omega) y hy

lemma InWords.stores_fit (hdiv : Rounding div) {squashStores : Int → List Int}
  (hsquash : ∀ s, |s| < 2 ^ 30 → ∀ y ∈ squashStores s, FitsInt32 y)
  (hw1 : ∀ i j, |net.w1 i j| ≤ w * 2 ^ bits) (hw2 : ∀ j i, |net.w2 j i| ≤ w * 2 ^ bits)
  (hx : ∀ j, |x j| ≤ v) (hlimit1 : ∀ i, |net.b1 i| + n * (w * v) < 2 ^ 30)
  (hlimit2 : ∀ j, |net.b2 j| + h * (w * 2 ^ bits) < 2 ^ 30) :
  ∀ y ∈ net.stores ops bits squashStores x, FitsInt32 y := by
  have hbound : ∀ i, |net.hidden ops x i| ≤ 2 ^ bits := by
    intro i
    rw [hops.hidden (hw1 i) hx (hlimit1 i)]
    exact abs_softsign_le hdiv (by positivity) _
  intro y hy
  rcases mem_append.mp hy with hfirst | hsecond
  · obtain ⟨i, -, hi⟩ := mem_flatMap.mp hfirst
    rcases mem_append.mp hi with hsum | hsquashed
    · refine hops.sumStores_fit (hw1 i) hx ?_ y hsum
      rw [length_finRange]
      exact hlimit1 i
    obtain ⟨heq, hlt⟩ := hops.weigh (hw1 i) hx (hlimit1 i)
    exact hsquash _ (heq ▸ hlt) y hsquashed
  obtain ⟨j, -, hj⟩ := mem_flatMap.mp hsecond
  refine hops.sumStores_fit (hw2 j) hbound ?_ y hj
  rw [length_finRange]
  exact hlimit2 j

end
end Aeos.Lib
