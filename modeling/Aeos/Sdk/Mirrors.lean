/-
# The SDK's networks and the kernel's

The kernel and the native library divide towards zero and compute the same.
-/

import Aeos.Ai.Core
import Aeos.Sdk.Network

namespace Aeos.Sdk

open Lib

/-- Used heap and pages as fractions, and the activity as `ai_perceive` clamps it. -/
structure InBox (x : Fin 3 → Int) : Prop where
  heap : 0 ≤ x 0 ∧ x 0 ≤ 65536
  pages : 0 ≤ x 1 ∧ x 1 ≤ 65536
  activity : -131072 ≤ x 2 ∧ x 2 ≤ 131072

abbrev exactC : NetOps := exactOps 16 Int.tdiv (-(4 * fpOne)) (4 * fpOne)

namespace Native

def fpSoftsignStores (x : Int) : List Int :=
  let absX := if x < 0 then -x else x
  let denom := fpOne + int32 absX
  [absX, denom, (x * 2 ^ 16).tdiv (int32 denom)]

def aiDecideStores (x : Fin 3 → Int) : List Int :=
  defaultNet.stores ops 16 fpSoftsignStores x

lemma fpSoftsignStores_fit {x : Int} (hx : |x| < 2 ^ 30) :
  ∀ y ∈ fpSoftsignStores x, FitsInt32 y := by
  have hquotient : |softsign Int.tdiv (2 ^ 16) x| < 2 ^ 16 := abs_softsign_tdiv_lt (by decide) x
  have hword : int32 |x| = |x| := int32_of_abs_lt (by rw [abs_abs]; omega)
  have hsign : (if x < 0 then -x else x) = |x| := by
    split_ifs with hneg
    · rw [abs_of_neg hneg]
    · rw [abs_of_nonneg (not_lt.mp hneg)]
  have hdenom : int32 (fpOne + |x|) = 2 ^ 16 + |x| := by
    rw [fpOne]
    apply int32_of_abs_lt
    rw [abs_of_nonneg (by omega)]
    omega
  simp only [fpSoftsignStores, hsign, hword, hdenom, List.mem_cons, List.not_mem_nil, or_false]
  rintro y (rfl | rfl | rfl)
  · exact ⟨by omega, by omega⟩
  · rw [fpOne]
    exact ⟨by omega, by omega⟩
  · exact fitsInt32_of_abs_lt (hquotient.trans (by decide))

end Native

/-! ## In the box -/

lemma policyNet_eq : Ai.policyNet = defaultNet := rfl

namespace InBox

variable {x : Fin 3 → Int} (hx : InBox x)
include hx

lemma abs_input_le (j : Fin 3) : |x j| ≤ 2 * 2 ^ 16 := by
  have hheap := hx.heap
  have hpages := hx.pages
  have hactivity := hx.activity
  rw [abs_le]
  match j with
  | 0 => omega
  | 1 => omega
  | 2 => omega

variable {ops : NetOps}

lemma hidden (hops : InWords ops 16 Int.tdiv (-(4 * fpOne)) (4 * fpOne)) (i : Fin 8) :
  defaultNet.hidden ops x i = softsign Int.tdiv (2 ^ 16) (preactivation x i) := by
  rw [hops.hidden (w := 2) (v := 2 * 2 ^ 16) (by decide +revert) hx.abs_input_le
    (by decide +revert),
    defaultNet_hidden]

lemma outputs (hops : InWords ops 16 Int.tdiv (-(4 * fpOne)) (4 * fpOne)) :
  defaultNet.outputs ops x = defaultNet.outputs exactC x :=
  hops.outputs (w := 2) rounding_tdiv (by decide) (by decide) hx.abs_input_le (by decide)
    (by decide)

lemma stores_fit (hops : InWords ops 16 Int.tdiv (-(4 * fpOne)) (4 * fpOne))
    {squashStores : Int → List Int}
    (hsquash : ∀ s, |s| < 2 ^ 30 → ∀ y ∈ squashStores s, FitsInt32 y) :
  ∀ y ∈ defaultNet.stores ops 16 squashStores x, FitsInt32 y :=
  hops.stores_fit (w := 2) rounding_tdiv hsquash (by decide) (by decide) hx.abs_input_le (by decide)
    (by decide)

lemma aiDecide : Ai.aiDecide x = (firstMax (defaultNet.outputs exactC x)).val := by
  rw [Ai.aiDecide, Net.decide, policyNet_eq, hx.outputs Ai.policyOps_inWords]

end InBox

lemma Action.id_ofIndex (j : Fin 3) : (Action.ofIndex j).id = j.val := by
  decide +revert

/-- For every input in the box no word of either implementation overflows, every hidden
activation is below one in size, and both choose the same action. -/
theorem native_decides_like_kernel {x : Fin 3 → Int} (hx : InBox x) :
  (∀ y ∈ Ai.aiDecideStores x, FitsInt32 y) ∧ (∀ y ∈ Native.aiDecideStores x, FitsInt32 y) ∧
    (∀ i, |Ai.policyNet.hidden Ai.policyOps x i| < 65536 ∧
      |defaultNet.hidden Native.ops x i| < 65536) ∧
    (Native.aiDecide x).id = Ai.aiDecide x := by
  refine ⟨hx.stores_fit Ai.policyOps_inWords fun _ => Ai.fpSoftsignStores_fit,
    hx.stores_fit Native.ops_inWords fun _ => Native.fpSoftsignStores_fit, fun i => ?_, ?_⟩
  · rw [policyNet_eq, hx.hidden Ai.policyOps_inWords, hx.hidden Native.ops_inWords]
    exact ⟨abs_softsign_tdiv_lt (by decide) _, abs_softsign_tdiv_lt (by decide) _⟩
  rw [Native.aiDecide, Action.id_ofIndex, hx.aiDecide, Net.decide,
    hx.outputs Native.ops_inWords]

/-- A full machine that was idle. -/
theorem native_decides_like_kernel_idle : InBox ![65536, 65536, -131072] ∧
    (Native.aiDecide ![65536, 65536, -131072]).id = Ai.aiDecide ![65536, 65536, -131072] := by
  have hx : InBox ![65536, 65536, -131072] := ⟨by decide, by decide, by decide⟩
  exact ⟨hx, (native_decides_like_kernel hx).2.2.2⟩

/-- `decide` of `ai_core.py` finds the kernel's hidden activations and action. -/
structure Mirrored (x : Fin 3 → Int) : Prop where
  hidden : ∀ i, (Py.decide defaultNet x).1 i = Ai.policyNet.hidden Ai.policyOps x i
  action : (Py.decide defaultNet x).2.id = Ai.aiDecide x

/-- The mirror is right for an input in the box exactly if every sum that a neuron squashes
is not negative, or has an exact soft sign. -/
theorem python_decides_like_kernel_iff {x : Fin 3 → Int} (hx : InBox x) : Mirrored x ↔
    ∀ i, 0 ≤ preactivation x i ∨ 2 ^ 16 + |preactivation x i| ∣ preactivation x i * 2 ^ 16 := by
  have hneuron : ∀ i, (Py.decide defaultNet x).1 i = Ai.policyNet.hidden Ai.policyOps x i ↔
      0 ≤ preactivation x i ∨ 2 ^ 16 + |preactivation x i| ∣ preactivation x i * 2 ^ 16 := by
    intro i
    have hpy : (Py.decide defaultNet x).1 i = defaultNet.hidden Py.ops x i := rfl
    rw [hpy, policyNet_eq, hx.hidden Ai.policyOps_inWords, Py.ops_eq, defaultNet_hidden, eq_comm]
    exact softsign_tdiv_eq_ediv_iff (by decide) _
  constructor
  · exact fun h i => (hneuron i).mp (h.hidden i)
  intro h
  have hhidden : ∀ i, (Py.decide defaultNet x).1 i = Ai.policyNet.hidden Ai.policyOps x i :=
    fun i => (hneuron i).mpr (h i)
  refine ⟨hhidden, ?_⟩
  -- The output layers are the same function of the hidden one.
  have hlayer : defaultNet.hidden Py.ops x = defaultNet.hidden exactC x := by
    funext i
    rw [defaultNet_hidden, ← hx.hidden Ai.policyOps_inWords]
    exact hhidden i
  have houtputs : defaultNet.outputs Py.ops x = defaultNet.outputs exactC x := by
    funext j
    rw [defaultNet_outputs, ← hlayer]
    rfl
  rw [hx.aiDecide, Py.decide, Action.id_ofIndex, Net.decide, houtputs]

theorem python_decides_like_kernel_balanced : Mirrored ![32768, 32768, -32768] := by
  refine (python_decides_like_kernel_iff ⟨by decide, by decide, by decide⟩).mpr ?_
  decide

/-- A tie broken the other way: the mirror boosts where the kernel sustains. -/
theorem python_decides_otherwise :
  InBox ![0, 12688, 3572] ∧ (Py.decide defaultNet ![0, 12688, 3572]).1 1 = -6442 ∧
    Ai.policyNet.hidden Ai.policyOps ![0, 12688, 3572] 1 = -6441 ∧
    (Py.decide defaultNet ![0, 12688, 3572]).2.id = Ai.aiActBoost ∧
    Ai.aiDecide ![0, 12688, 3572] = Ai.aiActSustain := by
  refine ⟨⟨by decide, by decide, by decide⟩, ?_, ?_, ?_, ?_⟩
  · decide +kernel
  · decide +kernel
  · decide +kernel
  · decide +kernel

end Aeos.Sdk
