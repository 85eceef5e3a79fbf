/-
# Consciousness levels

The level that bounds the timer rate comes from the energy of the CMT network's hidden
layer, the mean size of its twelve neurons.
-/

import Aeos.Ai.Learning
import Mathlib.Algebra.Order.BigOperators.Group.List

namespace Aeos.Ai

open Lib List
variable {x : Int}

lemma abs_lt_mul_fpSoftsignDivisor (hx : FitsInt32 x) :
  |x * 2 ^ 16| < 65539 * |fpSoftsignDivisor x| := by
  have hbound : |x| ≤ 2 ^ 31 := abs_le.mpr ⟨hx.1, hx.2.le⟩
  have hnonneg := abs_nonneg x
  rw [abs_mul, abs_of_pos (show (0 : Int) < 2 ^ 16 by decide), fpSoftsignDivisor,
    unsignedAbs_eq hx, fpOne]
  generalize |x| = y at *
  have hwrap : int32 (65536 + int32 y) = 65536 + y ∨ int32 (65536 + int32 y) = 65536 + y - 2 ^ 32 ∧
      2 ^ 31 - 65536 ≤ y := by
    simp only [int32, Int.bmod]
    split_ifs <;> omega
  rcases hwrap with hexact | ⟨hwrapped, hlarge⟩
  · rw [hexact, abs_of_nonneg (by omega)]
    omega
  rw [hwrapped, abs_of_nonpos (by omega)]
  omega

lemma fpSoftsignDivisor_ne_zero (hx : FitsInt32 x) : fpSoftsignDivisor x ≠ 0 := by
  intro hzero
  have hlt := abs_lt_mul_fpSoftsignDivisor hx
  rw [hzero, abs_zero, mul_zero] at hlt
  exact absurd (abs_nonneg _) (not_le.mpr hlt)

lemma abs_fpSoftsign_le (hx : FitsInt32 x) : |fpSoftsign x| ≤ 65538 := by
  have hlt := abs_lt_mul_fpSoftsignDivisor hx
  have hquotient : |(x * 2 ^ 16).tdiv (fpSoftsignDivisor x)| < 65539 := by
    rw [Int.abs_eq_natAbs, Int.natAbs_tdiv]
    rw [Int.abs_eq_natAbs, Int.abs_eq_natAbs] at hlt
    have hnat : (x * 2 ^ 16).natAbs < (fpSoftsignDivisor x).natAbs * 65539 := by omega
    exact_mod_cast Nat.div_lt_of_lt_mul hnat
  rw [fpSoftsign_eq_tdiv, int32_of_abs_lt (hquotient.trans (by decide))]
  omega

lemma fpAbs_eq (hx : |x| < 2 ^ 31) : fpAbs x = |x| := by
  obtain ⟨hlow, -⟩ := abs_lt.mp hx
  rw [fpAbs, if_neg (by omega)]
  split_ifs with hneg
  · rw [abs_of_neg hneg]
  · rw [abs_of_nonneg (not_lt.mp hneg)]

/-! ## The transform -/

/-- What `cmt_perceive` gives when no statistic is above its maximum. -/
structure CmtInput.InBox (i : CmtInput) : Prop where
  p : 0 ≤ i.p ∧ i.p ≤ 65536
  m : 0 ≤ i.m ∧ i.m ≤ 65536
  b : -131072 ≤ i.b ∧ i.b ≤ 131072
  s : 0 ≤ i.s ∧ i.s ≤ 65536
  a : i.a = 0 ∨ i.a = 65536 ∨ i.a = 131072
  x : 0 ≤ i.x ∧ i.x ≤ 65536

namespace Cmt

def inputs (i : CmtInput) : Fin 6 → Int := ![i.p, i.m, i.b, i.s, i.a, i.x]

def sumOf (i : CmtInput) (k : Fin 12) : Int :=
  cmtOps.weigh (cmtNet.b1 k) (cmtNet.w1 k) (inputs i)

def totalEnergy (hidden : Fin 12 → Int) (te : Int) (ks : List (Fin 12)) : Int :=
  ks.foldl (fun te k => int32 (te + fpAbs (hidden k))) te

def energyStores (hidden : Fin 12 → Int) : Int → List (Fin 12) → List Int
  | _, [] => []
  | te, k :: ks =>
    fpAbs (hidden k) :: (te + fpAbs (hidden k)) ::
      energyStores hidden (int32 (te + fpAbs (hidden k))) ks

/-- The signed words of `cmt_transform`. -/
def transformStores (i : CmtInput) : List Int :=
  let e := (transform i).2
  let te := totalEnergy e.dims 0 (List.finRange 12)
  cmtNet.stores cmtOps 16 fpSoftsignStores (inputs i) ++
    energyStores e.dims 0 (List.finRange 12) ++
    [te.tdiv 12, coherenceDivisor e.dims, te.tdiv (int32 (coherenceDivisor e.dims))]

/-- What `cmt_transform` divides by, apart from the number of neurons. -/
def transformDivisors (i : CmtInput) : List Int :=
  (List.finRange 12).map (fun k => fpSoftsignDivisor (sumOf i k)) ++
    [int32 (coherenceDivisor (transform i).2.dims)]

section
variable (i : CmtInput)

lemma transform_energy : (transform i).2.energy =
    (totalEnergy (transform i).2.dims 0 (List.finRange 12)).tdiv 12 := by
  rw [transform, totalEnergy]

lemma fitsInt32_sumOf (k : Fin 12) : FitsInt32 (sumOf i k) := fitsInt32_int32 _

lemma dims_eq (k : Fin 12) : (transform i).2.dims k = fpSoftsign (sumOf i k) := by
  rfl

lemma abs_dims_le (k : Fin 12) :
  |(transform i).2.dims k| ≤ if k = 11 then 0 else 65538 := by
  rw [dims_eq]
  split_ifs with hlast
  · have hzero : sumOf i k = 0 := by
      subst hlast
      refine weigh_zero (by decide) (fun y => ?_) (by decide)
      show int32 (scaled 16 0 y) = 0
      rw [scaled_eq_ediv, zero_mul]
      decide
    rw [hzero]
    decide
  · exact abs_fpSoftsign_le (fitsInt32_sumOf i k)

end

lemma totalEnergy_bounds {hidden bound : Fin 12 → Int} (hbound : ∀ k, |hidden k| ≤ bound k)
  {ks : List (Fin 12)} {te : Int} (hte : 0 ≤ te) (hlimit : te + (ks.map bound).sum < 2 ^ 31) :
  0 ≤ totalEnergy hidden te ks ∧ totalEnergy hidden te ks ≤ te + (ks.map bound).sum ∧
    ∀ y ∈ energyStores hidden te ks, FitsInt32 y := by
  induction ks generalizing te with
  | nil => exact ⟨hte, by simp [totalEnergy], fun y hy => absurd hy not_mem_nil⟩
  | cons k ks ih =>
    have hrest : 0 ≤ (ks.map bound).sum := by
      apply sum_nonneg
      intro y hy
      obtain ⟨l, -, rfl⟩ := mem_map.mp hy
      exact (abs_nonneg _).trans (hbound l)
    rw [map_cons, sum_cons] at hlimit ⊢
    have hk := hbound k
    have hknonneg := abs_nonneg (hidden k)
    have habs : fpAbs (hidden k) = |hidden k| := fpAbs_eq (by omega)
    have hword : int32 (te + |hidden k|) = te + |hidden k| := by
      apply int32_of_abs_lt
      rw [abs_of_nonneg (by omega)]
      omega
    obtain ⟨hlow, hhigh, hfit⟩ := @ih (te + |hidden k|) (by omega) (by omega)
    rw [totalEnergy, foldl_cons, ← totalEnergy, energyStores, habs, hword]
    refine ⟨hlow, by omega, fun y hy => ?_⟩
    rcases mem_cons.mp hy with rfl | hy
    · exact ⟨by omega, by omega⟩
    rcases mem_cons.mp hy with rfl | hy
    · exact ⟨by omega, by omega⟩
    · exact hfit y hy

lemma transform_totalEnergy (i : CmtInput) :
  0 ≤ totalEnergy (transform i).2.dims 0 (List.finRange 12) ∧
    totalEnergy (transform i).2.dims 0 (List.finRange 12) ≤ 720918 ∧
    ∀ y ∈ energyStores (transform i).2.dims 0 (List.finRange 12), FitsInt32 y :=
  totalEnergy_bounds (abs_dims_le i) (le_refl 0) (by decide)

lemma energy_lt (i : CmtInput) : (transform i).2.energy < 65536 := by
  obtain ⟨hlow, hhigh, -⟩ := transform_totalEnergy i
  rw [transform_energy, Int.tdiv_eq_ediv_of_nonneg hlow]
  omega

lemma coherence_bounds (i : CmtInput) :
  0 ≤ (transform i).2.coherence ∧ (transform i).2.coherence ≤ 65536 := by
  rw [transform]
  dsimp only
  split_ifs
  · rw [fpClamp, fpOne]
    split_ifs <;> omega
  · decide

lemma deriveLevel_lt {e : CmtExperience} (he : e.energy < 65536) : deriveLevel e < 3 := by
  rw [deriveLevel]
  split_ifs with hnone hlow hhigh
  · decide
  · decide
  · decide
  · exact absurd (.inl he) hhigh

lemma deriveLevel_transform (i : CmtInput) : deriveLevel (transform i).2 < 3 :=
  deriveLevel_lt (energy_lt i)

lemma transformDivisors_ne_zero (i : CmtInput) : ∀ d ∈ transformDivisors i, d ≠ 0 := by
  intro d hd
  rcases mem_append.mp hd with hsquash | hlast
  · obtain ⟨k, -, rfl⟩ := mem_map.mp hsquash
    exact fpSoftsignDivisor_ne_zero (fitsInt32_sumOf i k)
  have hzero := abs_dims_le i 0
  have hnonneg := abs_nonneg ((transform i).2.dims 0)
  rw [mem_singleton.mp hlast, coherenceDivisor, fpAbs_eq (by omega), int32_of_abs_lt]
  · omega
  rw [abs_of_nonneg (by omega)]
  omega

end Cmt

namespace CmtInput.InBox

variable {i : CmtInput}

lemma abs_input_le (hi : i.InBox) (j : Fin 6) : |Cmt.inputs i j| ≤ 2 * 2 ^ 16 := by
  obtain ⟨hp, hm, hb, hs, ha, hx⟩ := hi
  match j with
  | 0 => exact abs_le.mpr (show _ ≤ i.p ∧ i.p ≤ _ by omega)
  | 1 => exact abs_le.mpr (show _ ≤ i.m ∧ i.m ≤ _ by omega)
  | 2 => exact abs_le.mpr (show _ ≤ i.b ∧ i.b ≤ _ by omega)
  | 3 => exact abs_le.mpr (show _ ≤ i.s ∧ i.s ≤ _ by omega)
  | 4 => exact abs_le.mpr (show _ ≤ i.a ∧ i.a ≤ _ by omega)
  | 5 => exact abs_le.mpr (show _ ≤ i.x ∧ i.x ≤ _ by omega)

lemma transformStores_fit (hi : i.InBox) : ∀ y ∈ Cmt.transformStores i, FitsInt32 y := by
  obtain ⟨hlow, hhigh, henergy⟩ := Cmt.transform_totalEnergy i
  have hnetwork : ∀ y ∈ cmtNet.stores policyOps 16 fpSoftsignStores (Cmt.inputs i), FitsInt32 y :=
    policyOps_inWords.stores_fit (w := 2) rounding_tdiv (fun _ => fpSoftsignStores_fit) (by decide)
      (by decide) hi.abs_input_le (by decide) (by decide)
  have hdims := Cmt.abs_dims_le i 0
  have hnonneg := abs_nonneg ((Cmt.transform i).2.dims 0)
  have hdivisor : int32 (|(Cmt.transform i).2.dims 0| + 1) = |(Cmt.transform i).2.dims 0| + 1 := by
    apply int32_of_abs_lt
    rw [abs_of_nonneg (by omega)]
    omega
  intro y hy
  rcases mem_append.mp hy with hsums | hrest
  · rcases mem_append.mp hsums with hlayer | hsum
    · exact hnetwork y hlayer
    · exact henergy y hsum
  rw [Cmt.coherenceDivisor, fpAbs_eq (by omega), hdivisor, Int.tdiv_eq_ediv_of_nonneg hlow,
    Int.tdiv_eq_ediv_of_nonneg hlow] at hrest
  generalize Cmt.totalEnergy _ _ _ = te at hlow hhigh hrest
  have hcoherence := Int.ediv_le_self (|(Cmt.transform i).2.dims 0| + 1) hlow
  have hpositive := Int.ediv_nonneg hlow (show 0 ≤ |(Cmt.transform i).2.dims 0| + 1 by omega)
  simp only [mem_cons, not_mem_nil, or_false] at hrest
  rcases hrest with rfl | rfl | rfl
  · exact ⟨by omega, by omega⟩
  · exact ⟨by omega, by omega⟩
  · exact ⟨by omega, by omega⟩

end CmtInput.InBox

lemma fpFromRatio_bounds {num den : Nat} (h : num ≤ den) :
  0 ≤ fpFromRatio num den ∧ fpFromRatio num den ≤ 65536 := by
  rw [fpFromRatio]
  split_ifs with hden
  · decide
  have hle : num * 2 ^ 16 / den ≤ 65536 := by
    apply Nat.div_le_of_le_mul
    exact Nat.mul_le_mul_right _ h
  rw [int32_of_abs_lt]
  · exact ⟨Int.natCast_nonneg _, by exact_mod_cast hle⟩
  rw [Nat.abs_cast]
  exact_mod_cast lt_of_le_of_lt hle (by decide)

structure Stats.Sane (st : Stats) : Prop where
  heap : st.heapUsed ≤ st.heapCap
  pages : st.pagesFree ≤ st.pagesTotal
  total : st.pagesTotal < 2 ^ 32

lemma Cmt.perceive_inBox (c : Cmt) {st : Stats} (hst : st.Sane) {inferences errors action : Nat}
  (hcount : inferences + errors < 2 ^ 32) (haction : action ≤ 2) :
  (c.perceive st inferences errors action).InBox := by
  have hused : st.pagesUsed ≤ st.pagesTotal := by
    have := hst.pages
    rw [Stats.pagesUsed, u32]
    omega
  have hheap := fpFromRatio_bounds hst.heap
  have hpages := fpFromRatio_bounds hused
  have hword : u32 (inferences + errors) = inferences + errors := Nat.mod_eq_of_lt hcount
  have hmean : ∀ y z : Int, 0 ≤ y ∧ y ≤ 65536 → 0 ≤ z ∧ z ≤ 65536 →
      0 ≤ (int32 (y + z)).tdiv 2 ∧ (int32 (y + z)).tdiv 2 ≤ 65536 := by
    intro y z hy hz
    rw [int32_of_abs_lt (by rw [abs_of_nonneg (by omega)]; omega),
      Int.tdiv_eq_ediv_of_nonneg (by omega)]
    omega
  have hactivity : ∀ y, -131072 ≤ fpClamp y (-(2 * fpOne)) (2 * fpOne) ∧
      fpClamp y (-(2 * fpOne)) (2 * fpOne) ≤ 131072 := by
    intro y
    rw [fpClamp, fpOne]
    split_ifs <;> omega
  have hunit : ∀ y, 0 ≤ fpClamp y 0 fpOne ∧ fpClamp y 0 fpOne ≤ 65536 := by
    intro y
    rw [fpClamp, fpOne]
    split_ifs <;> omega
  simp only [perceive, hword]
  refine ⟨hmean _ _ hheap hpages, hunit _, ?_, ?_, ?_, ?_⟩
  · dsimp only
    exact hactivity _
  · dsimp only
    split_ifs
    · exact fpFromRatio_bounds (Nat.le_add_right _ _)
    · decide
  · obtain rfl | rfl | rfl : action = 0 ∨ action = 1 ∨ action = 2 := by omega
    · exact .inl rfl
    · exact .inr (.inl rfl)
    · exact .inr (.inr rfl)
  dsimp only
  exact hunit _

/-- No word of an inference overflows. -/
theorem Cmt.perceived_words_fit (c : Cmt) {st : Stats} (hst : st.Sane)
  {inferences errors action : Nat} (hcount : inferences + errors < 2 ^ 32) (haction : action ≤ 2) :
  ∀ y ∈ transformStores (c.perceive st inferences errors action), FitsInt32 y :=
  (c.perceive_inBox hst hcount haction).transformStores_fit

theorem Cmt.perceived_words_fit_busy : Stats.Sane ⟨7, 8, 1, 9⟩ ∧
    ∀ y ∈ transformStores (init.perceive ⟨7, 8, 1, 9⟩ 40 3 2), FitsInt32 y := by
  have hst : Stats.Sane ⟨7, 8, 1, 9⟩ := ⟨by decide, by decide, by decide⟩
  exact ⟨hst, perceived_words_fit init hst (by decide) (by decide)⟩

/-- What happens to the engines: events of the AI engine, and the calls of `cmt_api.c`. -/
inductive CmtEvent
  | engine (ev : LearnEvent)
  | cmtInit
  | cmtDisable
  | cmtEnable

def Engine.cmtReact (e : Engine) : CmtEvent → Engine
  | .engine ev => e.learnReact ev
  | .cmtInit => { e with cmt := .init }
  | .cmtDisable => { e with cmt := { e.cmt with disabled := true } }
  | .cmtEnable => { e with cmt := { e.cmt with disabled := false } }

/-- Runs from `cmt_init`, whatever the AI engine is in. -/
def conscious : Machine Engine CmtEvent where
  init e := e.cmt = .init
  enabled _ _ := True
  step := Engine.cmtReact

lemma Cmt.record_level (c : Cmt) (tick action level : Nat) (energy : Int) :
  (c.record tick action level energy).level = c.level := by
  rw [record]
  split_ifs <;> rfl

lemma Cmt.onTick_level {c : Cmt} (h : c.level < 3) (st : Stats) (inferences errors action : Nat) :
  (c.onTick st inferences errors action).level < 3 := by
  rw [onTick]
  split_ifs
  · exact h
  dsimp only
  split_ifs
  · exact h
  rw [record_level]
  dsimp only
  exact deriveLevel_transform _

namespace Engine

variable {e : Engine}

lemma infer_cmt (e : Engine) (st : Stats) : (e.infer st).cmt = e.cmt := by
  have hfix : ∀ (e : Engine) (fix : FixType), (e.applyFix fix).cmt = e.cmt := by
    intro e fix
    cases fix <;> rfl
  rw [infer_eq]
  split_ifs
  · exact hfix _ _
  · rfl

variable (h : e.cmt.level < 3)
include h

lemma aiOnTick_level (st : Stats) : (e.aiOnTick st).cmt.level < 3 := by
  have hhealthy : e.aiHealthy.2.cmt.level < 3 := by
    rw [aiHealthy]
    split_ifs <;> exact h
  simp only [aiOnTick]
  split_ifs
  · exact hhealthy
  · exact hhealthy
  · rw [infer_cmt]
    exact Cmt.onTick_level hhealthy _ _ _ _
  · exact Cmt.onTick_level hhealthy _ _ _ _

lemma cmtReact_level (ev : CmtEvent) : (e.cmtReact ev).cmt.level < 3 := by
  cases ev with
  | engine ev =>
    cases ev with
    | tick st errors => exact aiOnTick_level (e := e.withErrors errors) h st
    | _ => exact h
  | cmtInit => exact (by decide : (0 : Nat) < 3)
  | _ => exact h

end Engine

/-- For every input in the box no word of `cmt_transform` overflows, no divisor is zero, and
energy and coherence are too small for level 3; so in every run for `ai_act`. -/
theorem top_level_unreachable : (∀ i : CmtInput, i.InBox →
    (∀ y ∈ Cmt.transformStores i, FitsInt32 y) ∧ (∀ d ∈ Cmt.transformDivisors i, d ≠ 0) ∧
    (Cmt.transform i).2.energy < 65536 ∧
    (0 ≤ (Cmt.transform i).2.coherence ∧ (Cmt.transform i).2.coherence ≤ 65536) ∧
    Cmt.deriveLevel (Cmt.transform i).2 ≠ 3) ∧
  ∀ e, conscious.Reachable e → ∀ st errors, ((e.withErrors errors).ticked st).cmt.level < 3 := by
  constructor
  · intro i hi
    exact ⟨hi.transformStores_fit, Cmt.transformDivisors_ne_zero i, Cmt.energy_lt i,
      Cmt.coherence_bounds i, (Cmt.deriveLevel_transform i).ne⟩
  intro e he st errors
  refine Cmt.onTick_level ?_ _ _ _ _
  refine he.invariant (fun e => e.cmt.level < 3) ?_ fun e ev h _ => Engine.cmtReact_level h ev
  intro e hinit
  rw [show e.cmt = .init from hinit]
  decide

/-- The strongest input of the box. -/
theorem top_level_unreachable_strongest :
  (Cmt.transform ⟨65536, 65536, 131072, 65536, 131072, 65536⟩).2.energy < 65536 := by
  have hbox : CmtInput.InBox ⟨65536, 65536, 131072, 65536, 131072, 65536⟩ :=
    ⟨by decide, by decide, by decide, by decide, by decide, by decide⟩
  exact (top_level_unreachable.1 _ hbox).2.2.1

end Aeos.Ai
