/-
# The policy network of the SDK

The SDK has the kernel's 3-8-3 network twice.
-/

import Aeos.Lib.Bytes
import Aeos.Lib.Perceptron

namespace Aeos.Sdk

open Lib

inductive Action
  | sustain
  | boost
  | rest
deriving DecidableEq

namespace Action

def ofIndex : Fin 3 → Action := ![sustain, boost, rest]

def id : Action → Nat
  | sustain => 0
  | boost => 1
  | rest => 2

def name : Action → String
  | sustain => "SUSTAIN"
  | boost => "BOOST"
  | rest => "REST"

lemma name_injective : Function.Injective name := by
  intro a b h
  cases a <;> cases b <;> first | rfl | exact absurd h (by decide)

lemma ofIndex_eq_boost : ∀ {j : Fin 3}, ofIndex j = boost → j = 1 := by
  decide

end Action

def fpOne : Int := 65536

def aiPeriodTicks : Nat := 50

def aiHistLen : Nat := 16

/-- The numbers of `W1`, `B1`, `W2` and `B2`, written out in both files. -/
def defaultNet : Net 3 8 3 where
  w1 := ![
    ![0, 0, 2 * 2 ^ 16],
    ![0, 0, -(2 * 2 ^ 16)],
    ![2 * 2 ^ 16, 0, 0],
    ![0, 2 * 2 ^ 16, 0],
    ![2 ^ 15, 2 ^ 15, 0],
    ![-2 ^ 16, -2 ^ 16, -2 ^ 16],
    ![2 ^ 16, 0, 2 ^ 16],
    ![0, 0, 0]]
  b1 := ![0, 0, -2 ^ 16, -2 ^ 16, 0, 2 ^ 15, 0, 0]
  w2 := ![
    ![-2 ^ 14, -2 ^ 14, -2 ^ 14, -2 ^ 14, 2 ^ 15, 2 ^ 15, -2 ^ 14, 2 ^ 15],
    ![2 * 2 ^ 16, -(2 * 2 ^ 16), 0, 0, -2 ^ 15, -2 ^ 15, 2 * 2 ^ 16, 0],
    ![0, 2 * 2 ^ 16, 2 * 2 ^ 16, 2 * 2 ^ 16, 2 ^ 15, 0, -2 ^ 15, 0]]
  b2 := ![0, 0, 0]

/-! ## `ai_core.py` -/

namespace Py

def fpMul (a b : Int) : Int := (a * b) >>> (16 : Nat)

def fpFromRatio (num den : Int) : Int :=
  if den = 0 then 0 else (num * 2 ^ 16).fdiv den

def fpSoftsign (x : Int) : Int := (x * 2 ^ 16).fdiv (fpOne + |x|)

def fpClamp (x lo hi : Int) : Int := max lo (min hi x)

def ops : NetOps where
  mul := fpMul
  add s p := s + p
  squash := fpSoftsign
  clamp x := fpClamp x (-(4 * fpOne)) (4 * fpOne)

def perceive (heapUsed heapCap pagesFree pagesTotal ticksSinceInfer : Int) : Fin 3 → Int :=
  ![fpFromRatio heapUsed heapCap,
    fpFromRatio (pagesTotal - pagesFree) pagesTotal,
    fpClamp (fpFromRatio ticksSinceInfer aiPeriodTicks - fpOne) (-(2 * fpOne)) (2 * fpOne)]

def decide (net : Net 3 8 3) (x : Fin 3 → Int) : (Fin 8 → Int) × Action :=
  (net.hidden ops x, .ofIndex (net.decide ops x))

def act (currentHz : Nat) (action : Action) : Nat :=
  match action with
  | .boost => if currentHz + 25 ≤ 200 then currentHz + 25 else currentHz
  | .rest => if currentHz ≥ 20 + 25 then currentHz - 25 else currentHz
  | .sustain => currentHz

lemma ops_eq : ops = exactOps 16 (fun a b => a / b) (-(4 * fpOne)) (4 * fpOne) := by
  have hsquash : fpSoftsign = softsign (fun a b => a / b) (2 ^ 16) := by
    funext x
    have hden : 0 ≤ fpOne + |x| := add_nonneg (by decide) (abs_nonneg x)
    rw [fpSoftsign, Int.fdiv_eq_ediv_of_nonneg _ hden]
    rfl
  rw [ops, exactOps, hsquash]
  rfl

end Py

/-! ## `aeos_kernel.c` -/

namespace Native

def fpMul (a b : Int) : Int := int32 ((a * b) >>> (16 : Nat))

def fpFromRatio (num den : Nat) : Int :=
  if den = 0 then 0 else int32 ((num * 2 ^ 16 / den : Nat) : Int)

def fpSoftsign (x : Int) : Int :=
  let denom := int32 (fpOne + if x < 0 then int32 (-x) else x)
  int32 ((x * 2 ^ 16).tdiv denom)

def fpClamp (x lo hi : Int) : Int :=
  if x < lo then lo else if x > hi then hi else x

def ops : NetOps where
  mul := fpMul
  add s p := int32 (s + p)
  squash := fpSoftsign
  clamp x := fpClamp x (-(4 * fpOne)) (4 * fpOne)

def aiDecide (x : Fin 3 → Int) : Action := .ofIndex (defaultNet.decide ops x)

lemma fpSoftsign_eq {x : Int} (hx : |x| < 2 ^ 30) :
  fpSoftsign x = softsign Int.tdiv (2 ^ 16) x := by
  have habs : (if x < 0 then int32 (-x) else x) = |x| := by
    split_ifs with hneg
    · rw [int32_of_abs_lt (by rw [abs_neg]; omega), abs_of_neg hneg]
    · rw [abs_of_nonneg (not_lt.mp hneg)]
  have hden : int32 (fpOne + |x|) = 2 ^ 16 + |x| := by
    apply int32_of_abs_lt
    have := abs_nonneg x
    rw [fpOne, abs_of_nonneg (by omega)]
    omega
  have hle : |softsign Int.tdiv (2 ^ 16) x| ≤ 2 ^ 16 :=
    abs_softsign_le rounding_tdiv (by decide) x
  rw [fpSoftsign, habs]
  simp only [hden]
  apply int32_of_abs_lt
  exact lt_of_le_of_lt hle (by decide)

lemma fpClamp_eq {x lo hi : Int} (h : lo ≤ hi) : fpClamp x lo hi = max lo (min hi x) := by
  rw [fpClamp]
  split_ifs <;> omega

lemma ops_inWords : InWords ops 16 Int.tdiv (-(4 * fpOne)) (4 * fpOne) where
  mul _ _ := rfl
  add _ _ := rfl
  squash _ hx := fpSoftsign_eq hx
  clamp _ := fpClamp_eq (by decide)

end Native

/-! ## Decisions -/

section
variable {div : Int → Int → Int} {lo hi : Int}

section
variable (h : Fin 8 → Int)
include h

lemma defaultNet_sustain : (exactOps 16 div lo hi).weigh (defaultNet.b2 0) (defaultNet.w2 0) h =
    -h 0 / 4 + -h 1 / 4 + -h 2 / 4 + -h 3 / 4 + h 4 / 2 + h 5 / 2 + -h 6 / 4 + h 7 / 2 := by
  show 0 + scaled 16 (-2 ^ 14) (h 0) + scaled 16 (-2 ^ 14) (h 1) + scaled 16 (-2 ^ 14) (h 2) +
    scaled 16 (-2 ^ 14) (h 3) + scaled 16 (2 ^ 15) (h 4) + scaled 16 (2 ^ 15) (h 5) +
    scaled 16 (-2 ^ 14) (h 6) + scaled 16 (2 ^ 15) (h 7) = _
  simp only [scaled_eq_ediv]
  omega

lemma defaultNet_boost : (exactOps 16 div lo hi).weigh (defaultNet.b2 1) (defaultNet.w2 1) h =
    2 * h 0 - 2 * h 1 + -h 4 / 2 + -h 5 / 2 + 2 * h 6 := by
  show 0 + scaled 16 (2 * 2 ^ 16) (h 0) + scaled 16 (-(2 * 2 ^ 16)) (h 1) + scaled 16 0 (h 2) +
    scaled 16 0 (h 3) + scaled 16 (-2 ^ 15) (h 4) + scaled 16 (-2 ^ 15) (h 5) +
    scaled 16 (2 * 2 ^ 16) (h 6) + scaled 16 0 (h 7) = _
  simp only [scaled_eq_ediv]
  omega

lemma defaultNet_rest : (exactOps 16 div lo hi).weigh (defaultNet.b2 2) (defaultNet.w2 2) h =
    2 * h 1 + 2 * h 2 + 2 * h 3 + h 4 / 2 + -h 6 / 2 := by
  show 0 + scaled 16 0 (h 0) + scaled 16 (2 * 2 ^ 16) (h 1) + scaled 16 (2 * 2 ^ 16) (h 2) +
    scaled 16 (2 * 2 ^ 16) (h 3) + scaled 16 (2 ^ 15) (h 4) + scaled 16 0 (h 5) +
    scaled 16 (-2 ^ 15) (h 6) + scaled 16 0 (h 7) = _
  simp only [scaled_eq_ediv]
  omega

end

/-- The weighted sum that neuron `i` squashes. -/
def preactivation (x : Fin 3 → Int) : Fin 8 → Int :=
  ![2 * x 2, -(2 * x 2), 2 * x 0 - 2 ^ 16, 2 * x 1 - 2 ^ 16, x 0 / 2 + x 1 / 2,
    2 ^ 15 - x 0 - x 1 - x 2, x 0 + x 2, 0]

lemma defaultNet_hidden (x : Fin 3 → Int) (i : Fin 8) :
  defaultNet.hidden (exactOps 16 div lo hi) x i = softsign div (2 ^ 16) (preactivation x i) := by
  have hsum : ∀ i, (exactOps 16 div lo hi).weigh (defaultNet.b1 i) (defaultNet.w1 i) x =
      defaultNet.b1 i + scaled 16 (defaultNet.w1 i 0) (x 0) + scaled 16 (defaultNet.w1 i 1) (x 1) +
        scaled 16 (defaultNet.w1 i 2) (x 2) := fun _ => rfl
  show softsign div (2 ^ 16) _ = _
  congr 1
  rw [hsum]
  simp only [scaled_eq_ediv]
  match i with
  | 0 =>
    show 0 + 0 * x 0 / 2 ^ 16 + 0 * x 1 / 2 ^ 16 + 2 * 2 ^ 16 * x 2 / 2 ^ 16 = 2 * x 2
    omega
  | 1 =>
    show 0 + 0 * x 0 / 2 ^ 16 + 0 * x 1 / 2 ^ 16 + -(2 * 2 ^ 16) * x 2 / 2 ^ 16 = -(2 * x 2)
    omega
  | 2 =>
    show -2 ^ 16 + 2 * 2 ^ 16 * x 0 / 2 ^ 16 + 0 * x 1 / 2 ^ 16 + 0 * x 2 / 2 ^ 16 =
      2 * x 0 - 2 ^ 16
    omega
  | 3 =>
    show -2 ^ 16 + 0 * x 0 / 2 ^ 16 + 2 * 2 ^ 16 * x 1 / 2 ^ 16 + 0 * x 2 / 2 ^ 16 =
      2 * x 1 - 2 ^ 16
    omega
  | 4 =>
    show 0 + 2 ^ 15 * x 0 / 2 ^ 16 + 2 ^ 15 * x 1 / 2 ^ 16 + 0 * x 2 / 2 ^ 16 = x 0 / 2 + x 1 / 2
    omega
  | 5 =>
    show 2 ^ 15 + -2 ^ 16 * x 0 / 2 ^ 16 + -2 ^ 16 * x 1 / 2 ^ 16 + -2 ^ 16 * x 2 / 2 ^ 16 =
      2 ^ 15 - x 0 - x 1 - x 2
    omega
  | 6 =>
    show 0 + 2 ^ 16 * x 0 / 2 ^ 16 + 0 * x 1 / 2 ^ 16 + 2 ^ 16 * x 2 / 2 ^ 16 = x 0 + x 2
    omega
  | 7 =>
    show 0 + 0 * x 0 / 2 ^ 16 + 0 * x 1 / 2 ^ 16 + 0 * x 2 / 2 ^ 16 = 0
    omega

variable (hdiv : Rounding div)
include hdiv

lemma defaultNet_hidden_mem {x : Fin 3 → Int} {H : Fin 8 → Int} {i : Fin 8} {s a b l u : Int}
  (hH : defaultNet.hidden (exactOps 16 div lo hi) x = H) (hs : preactivation x i = s)
  (ha : a ≤ s) (hb : s ≤ b) (hl : softsign div (2 ^ 16) a = l)
  (hu : softsign div (2 ^ 16) b = u) : l ≤ H i ∧ H i ≤ u := by
  rw [← hH, defaultNet_hidden, hs, ← hl, ← hu]
  exact ⟨softsign_mono hdiv (by decide) ha, softsign_mono hdiv (by decide) hb⟩

omit hdiv in
lemma defaultNet_outputs (x : Fin 3 → Int) (j : Fin 3) :
  defaultNet.outputs (exactOps 16 div lo hi) x j =
    max lo (min hi ((exactOps 16 div lo hi).weigh (defaultNet.b2 j) (defaultNet.w2 j)
      (defaultNet.hidden (exactOps 16 div lo hi) x))) :=
  rfl

end

lemma Native.outputs_eq {x : Fin 3 → Int} (hx : ∀ j, |x j| ≤ 2 * 2 ^ 16) :
  defaultNet.outputs ops x =
    defaultNet.outputs (exactOps 16 Int.tdiv (-(4 * fpOne)) (4 * fpOne)) x :=
  ops_inWords.outputs (w := 2) rounding_tdiv (by decide) (by decide) hx (by decide) (by decide)

variable {r : Int}

lemma outputs_active (h0 : 0 ≤ r) (h1 : r ≤ 65536) (j : Fin 3) (hj : j ≠ 1) :
  defaultNet.outputs (exactOps 16 Int.tdiv (-(4 * fpOne)) (4 * fpOne)) ![r, r, 2 * fpOne] j <
    defaultNet.outputs (exactOps 16 Int.tdiv (-(4 * fpOne)) (4 * fpOne)) ![r, r, 2 * fpOne] 1 := by
  rw [defaultNet_outputs, defaultNet_outputs]
  generalize hH : defaultNet.hidden _ _ = H
  have hmem {i s a b l u} := @defaultNet_hidden_mem _ _ _ rounding_tdiv _ H i s a b l u hH
  have n0 : 52428 ≤ H 0 ∧ H 0 ≤ 52428 :=
    hmem (s := 262144) rfl (le_refl _) (le_refl _) (by decide) (by decide)
  have n1 : -52428 ≤ H 1 ∧ H 1 ≤ -52428 :=
    hmem (s := -262144) rfl (le_refl _) (le_refl _) (by decide) (by decide)
  have n2 : -32768 ≤ H 2 ∧ H 2 ≤ 32768 :=
    hmem (s := 2 * r - 2 ^ 16) (a := -65536) (b := 65536) rfl (by omega) (by omega)
      (by decide) (by decide)
  have n3 : -32768 ≤ H 3 ∧ H 3 ≤ 32768 :=
    hmem (s := 2 * r - 2 ^ 16) (a := -65536) (b := 65536) rfl (by omega) (by omega)
      (by decide) (by decide)
  have n4 : 0 ≤ H 4 ∧ H 4 ≤ 32768 :=
    hmem (s := r / 2 + r / 2) (a := 0) (b := 65536) rfl (by omega) (by omega)
      (by decide) (by decide)
  have n5 : -50972 ≤ H 5 ∧ H 5 ≤ -39321 :=
    hmem (s := 2 ^ 15 - r - r - 2 * fpOne) (a := -229376) (b := -98304) rfl
      (by rw [fpOne]; omega) (by rw [fpOne]; omega) (by decide) (by decide)
  have n6 : 43690 ≤ H 6 ∧ H 6 ≤ 49152 :=
    hmem (s := r + 2 * fpOne) (a := 131072) (b := 196608) rfl
      (by rw [fpOne]; omega) (by rw [fpOne]; omega) (by decide) (by decide)
  have n7 : 0 ≤ H 7 ∧ H 7 ≤ 0 :=
    hmem (s := 0) rfl (le_refl _) (le_refl _) (by decide) (by decide)
  rw [defaultNet_boost, fpOne]
  match j with
  | 0 =>
    rw [defaultNet_sustain]
    omega
  | 2 =>
    rw [defaultNet_rest]
    omega

lemma Native.aiDecide_active (h0 : 0 ≤ r) (h1 : r ≤ 65536) :
  Native.aiDecide ![r, r, 2 * fpOne] = .boost := by
  have hx : ∀ j, |(![r, r, 2 * fpOne] : Fin 3 → Int) j| ≤ 2 * 2 ^ 16 := by
    have hr : |r| ≤ 2 * 2 ^ 16 := abs_le.mpr ⟨by omega, by omega⟩
    intro j
    match j with
    | 0 => exact hr
    | 1 => exact hr
    | 2 => exact le_refl _
  rw [Native.aiDecide, Net.decide, Native.outputs_eq hx, firstMax_eq (outputs_active h0 h1)]
  rfl

lemma outputs_quiet (h0 : 0 ≤ r) (h1 : r ≤ 65536) :
  defaultNet.outputs Py.ops ![0, r, 0] 1 ≤ defaultNet.outputs Py.ops ![0, r, 0] 0 ∨
    defaultNet.outputs Py.ops ![0, r, 0] 1 < defaultNet.outputs Py.ops ![0, r, 0] 2 := by
  rw [Py.ops_eq, defaultNet_outputs, defaultNet_outputs, defaultNet_outputs]
  generalize hH : defaultNet.hidden _ _ = H
  have hmem {i s a b l u} := @defaultNet_hidden_mem _ _ _ rounding_ediv _ H i s a b l u hH
  have hzero {i} (hi : preactivation ![0, r, 0] i = 0) : 0 ≤ H i ∧ H i ≤ 0 :=
    hmem hi (le_refl _) (le_refl _) (by decide) (by decide)
  have n0 := hzero (i := 0) rfl
  have n1 := hzero (i := 1) rfl
  have n2 : -32768 ≤ H 2 ∧ H 2 ≤ -32768 :=
    hmem (s := -65536) rfl (le_refl _) (le_refl _) (by decide) (by decide)
  have n6 := hzero (i := 6) rfl
  have n7 := hzero (i := 7) rfl
  -- What is known of the other three neurons when `r` lies between `p` and `q`.
  have hrange {p q l3 u3 l4 u4 l5 u5 : Int} (hp : p ≤ r) (hq : r ≤ q)
      (hl3 : softsign (fun a b => a / b) (2 ^ 16) (2 * p - 2 ^ 16) = l3)
      (hu3 : softsign (fun a b => a / b) (2 ^ 16) (2 * q - 2 ^ 16) = u3)
      (hl4 : softsign (fun a b => a / b) (2 ^ 16) (p / 2) = l4)
      (hu4 : softsign (fun a b => a / b) (2 ^ 16) (q / 2) = u4)
      (hl5 : softsign (fun a b => a / b) (2 ^ 16) (2 ^ 15 - q) = l5)
      (hu5 : softsign (fun a b => a / b) (2 ^ 16) (2 ^ 15 - p) = u5) :
      (l3 ≤ H 3 ∧ H 3 ≤ u3) ∧ (l4 ≤ H 4 ∧ H 4 ≤ u4) ∧ l5 ≤ H 5 ∧ H 5 ≤ u5 :=
    ⟨hmem (s := 2 * r - 2 ^ 16) rfl (by omega) (by omega) hl3 hu3,
      hmem (s := 0 / 2 + r / 2) rfl (by omega) (by omega) hl4 hu4,
      hmem (s := 2 ^ 15 - 0 - r - 0) rfl (by omega) (by omega) hl5 hu5⟩
  rw [defaultNet_sustain, defaultNet_boost, defaultNet_rest, fpOne]
  -- Below 58280 sustaining wins, in four steps fine enough for the bounds; above it resting.
  have hsplit : r ≤ 32768 ∨ (32768 ≤ r ∧ r ≤ 45000) ∨ (45000 ≤ r ∧ r ≤ 52000) ∨
      (52000 ≤ r ∧ r ≤ 58279) ∨ 58280 ≤ r := by
    omega
  rcases hsplit with hr | hr | hr | hr | hr
  · have : (-32768 ≤ H 3 ∧ H 3 ≤ 0) ∧ (0 ≤ H 4 ∧ H 4 ≤ 13107) ∧ 0 ≤ H 5 ∧ H 5 ≤ 21845 :=
      hrange h0 hr rfl rfl rfl rfl rfl rfl
    omega
  · have : (0 ≤ H 3 ∧ H 3 ≤ 17814) ∧ (13107 ≤ H 4 ∧ H 4 ≤ 16749) ∧ -10309 ≤ H 5 ∧ H 5 ≤ 0 :=
      hrange hr.1 hr.2 rfl rfl rfl rfl rfl rfl
    omega
  · have : (17814 ≤ H 3 ∧ H 3 ≤ 24238) ∧ (16749 ≤ H 4 ∧ H 4 ≤ 18614) ∧
        -14869 ≤ H 5 ∧ H 5 ≤ -10309 :=
      hrange hr.1 hr.2 rfl rfl rfl rfl rfl rfl
    omega
  · have : (24238 ≤ H 3 ∧ H 3 ≤ 28687) ∧ (18614 ≤ H 4 ∧ H 4 ≤ 20170) ∧
        -18363 ≤ H 5 ∧ H 5 ≤ -14869 :=
      hrange hr.1 hr.2 rfl rfl rfl rfl rfl rfl
    omega
  have : (28688 ≤ H 3 ∧ H 3 ≤ 32768) ∧ (20171 ≤ H 4 ∧ H 4 ≤ 21845) ∧
      -21846 ≤ H 5 ∧ H 5 ≤ -18364 :=
    hrange hr h1 rfl rfl rfl rfl rfl rfl
  omega

lemma Py.decide_quiet (h0 : 0 ≤ r) (h1 : r ≤ 65536) :
  (Py.decide defaultNet ![0, r, 0]).2 ≠ .boost := by
  intro hboost
  have hfirst : firstMax (defaultNet.outputs Py.ops ![0, r, 0]) = 1 :=
    Action.ofIndex_eq_boost hboost
  rcases outputs_quiet h0 h1 with hsustain | hrest
  · exact absurd (lt_of_firstMax_eq hfirst (by decide)) (not_lt.mpr hsustain)
  have hle := le_firstMax (defaultNet.outputs Py.ops ![0, r, 0]) 2
  rw [hfirst] at hle
  exact absurd hle (not_le.mpr hrest)

end Aeos.Sdk
