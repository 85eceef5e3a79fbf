/-
# The learner stays in range

`ai_learn.c` indexes its table with states and actions that went through a ring of
experiences, and computes new values from old ones in 32-bit words.
-/

import Aeos.Ai.Engine
import Aeos.Lib.Machine

namespace Aeos.Ai

open Lib List Function

/-! ## One sample -/

/-- The numbers of an experience are indices of the table and a 16-bit reward. -/
structure Experience.Fits (x : Experience) : Prop where
  state : x.state < learnStates
  action : x.action < learnActions
  nextState : x.nextState < learnStates
  reward : -2 ^ 15 ≤ x.reward ∧ x.reward < 2 ^ 15

/-- What one sample of `ai_learn_update` computes, without any word size: the products before the
shift, and the values of its variables. -/
structure Sample where
  currentQ : Int
  maxNext : Int
  discountProduct : Int
  discounted : Int
  target : Int
  delta : Int
  updateProduct : Int
  update : Int
  newQ : Int

/-- Every product fits in 64 bits and everything else in 32. -/
structure Sample.Fits (s : Sample) : Prop where
  products : ∀ x ∈ [s.discountProduct, s.updateProduct], -2 ^ 63 ≤ x ∧ x < 2 ^ 63
  words : ∀ x ∈ [s.currentQ, s.maxNext, s.discounted, s.target, s.delta, s.update, s.newQ],
    -2 ^ 31 ≤ x ∧ x < 2 ^ 31

namespace Learn

def maxNext (l : Learn) (state : Nat) : Int :=
  (List.range' 1 (learnActions - 1)).foldl
    (fun m j => if l.qTable state j > m then l.qTable state j else m) (l.qTable state 0)

/-- The exact numbers of the sample that learns from `x`. -/
def sample (l : Learn) (x : Experience) : Sample :=
  let currentQ := l.qTable x.state x.action
  let maxNext := l.maxNext x.nextState
  let discounted := scaled 16 learnGamma maxNext
  let target := x.reward + discounted
  let delta := target - currentQ
  let update := scaled 16 learnAlpha delta
  { currentQ := currentQ
    maxNext := maxNext
    discountProduct := learnGamma * maxNext
    discounted := discounted
    target := target
    delta := delta
    updateProduct := learnAlpha * delta
    update := update
    newQ := currentQ + update }

def samples (l : Learn) : Nat := if l.replayCount < 8 then l.replayCount else 8

/-- The experience that sample `i` learns from. -/
def sampleIndex (l : Learn) (i : Nat) : Nat := u32 (l.totalUpdates + i) % l.replayCount

/-- The learner after the first `k` samples of an update. -/
def sampled (l : Learn) (k : Nat) : Learn :=
  (List.range k).foldl (fun l i => l.learnFrom (l.replay (l.sampleIndex i))) l

/-- What holds of the learner between any two calls. -/
structure InRange (l : Learn) : Prop where
  q : ∀ s < learnStates, ∀ a < learnActions, -65536 ≤ l.qTable s a ∧ l.qTable s a ≤ 65536
  replay : ∀ i < learnMemory, (l.replay i).Fits
  head : l.replayHead < learnMemory
  count : l.replayCount ≤ learnMemory

variable {l : Learn}

lemma maxNext_eq (l : Learn) (s : Nat) : ∃ a < learnActions, l.maxNext s = l.qTable s a := by
  have hfold : l.maxNext s =
      (if l.qTable s 2 > if l.qTable s 1 > l.qTable s 0 then l.qTable s 1 else l.qTable s 0
        then l.qTable s 2
        else if l.qTable s 1 > l.qTable s 0 then l.qTable s 1 else l.qTable s 0) := rfl
  rw [hfold]
  split_ifs
  · exact ⟨2, by decide, rfl⟩
  · exact ⟨1, by decide, rfl⟩
  · exact ⟨2, by decide, rfl⟩
  · exact ⟨0, by decide, rfl⟩

lemma bestAction_lt (l : Learn) (s : Nat) : l.bestAction s < learnActions := by
  rw [bestAction]
  split_ifs
  · decide
  show (if _ then 2 else if _ then 1 else 0) < 3
  split_ifs <;> decide

lemma chooseAction_lt (l : Learn) (s : Nat) : l.chooseAction s < learnActions := by
  rw [chooseAction]
  split_ifs
  · exact Nat.mod_lt _ (by decide)
  · exact l.bestAction_lt s

namespace InRange

lemma init : Learn.init.InRange where
  q := by
    intro s _ a _
    simp only [Learn.init]
    split_ifs <;> decide
  replay := by
    intro i _
    have hzero : (⟨0, 0, 0, 0, false⟩ : Experience).Fits :=
      ⟨by decide, by decide, by decide, by decide⟩
    exact hzero
  head := by decide
  count := by decide

variable (h : l.InRange)
include h

lemma abs_maxNext_le {s : Nat} (hs : s < learnStates) :
  |l.maxNext s| ≤ 65536 := by
  obtain ⟨a, ha, hmax⟩ := l.maxNext_eq s
  rw [hmax, abs_le]
  exact h.q s hs a ha

variable {x : Experience}

lemma sample_bounds (hx : x.Fits) :
  |(l.sample x).currentQ| ≤ 65536 ∧ |(l.sample x).maxNext| ≤ 65536 ∧
    |(l.sample x).discounted| ≤ 65536 ∧ |(l.sample x).delta| ≤ 163840 ∧
    |(l.sample x).update| ≤ 163840 := by
  have hcurrent : |(l.sample x).currentQ| ≤ 65536 :=
    abs_le.mpr (h.q x.state hx.state x.action hx.action)
  have hmax := h.abs_maxNext_le hx.nextState
  have hdiscounted : |(l.sample x).discounted| ≤ 65536 := by
    have hle := @abs_scaled_le 16 learnGamma _ 1 _ (by decide) hmax
    rwa [one_mul] at hle
  have hdelta : |(l.sample x).delta| ≤ 163840 := by
    have hreward := hx.reward
    have hdef : (l.sample x).delta =
        x.reward + (l.sample x).discounted - (l.sample x).currentQ := rfl
    rw [abs_le] at hcurrent hdiscounted ⊢
    omega
  have hupdate : |(l.sample x).update| ≤ 163840 := by
    have hle := @abs_scaled_le 16 learnAlpha _ 1 _ (by decide) hdelta
    rwa [one_mul] at hle
  exact ⟨hcurrent, hmax, hdiscounted, hdelta, hupdate⟩

lemma sample_fits (hx : x.Fits) : (l.sample x).Fits := by
  obtain ⟨hcurrent, hmax, hdiscounted, hdelta, hupdate⟩ := h.sample_bounds hx
  have hreward := hx.reward
  have htarget : (l.sample x).target = x.reward + (l.sample x).discounted := rfl
  have hnew : (l.sample x).newQ = (l.sample x).currentQ + (l.sample x).update := rfl
  have hproduct : (l.sample x).discountProduct = 52428 * (l.sample x).maxNext := rfl
  have hstep : (l.sample x).updateProduct = 1638 * (l.sample x).delta := rfl
  rw [abs_le] at hcurrent hmax hdiscounted hdelta hupdate
  constructor
  · simp only [forall_mem_cons, not_mem_nil, false_implies, implies_true, and_true]
    omega
  simp only [forall_mem_cons, not_mem_nil, false_implies, implies_true, and_true]
  omega

end InRange

def clampQ (q : Int) : Int :=
  let q := if q > 65536 then 65536 else q
  if q < -65536 then -65536 else q

lemma clampQ_bounds (q : Int) : -65536 ≤ clampQ q ∧ clampQ q ≤ 65536 := by
  simp only [clampQ]
  split_ifs <;> omega

lemma learnFrom_eq (h : l.InRange) {x : Experience} (hx : x.Fits) : l.learnFrom x = { l with
      qTable := Function.update l.qTable x.state
        (Function.update (l.qTable x.state) x.action (clampQ (l.sample x).newQ)) } := by
  obtain ⟨hcurrent, hmax, hdiscounted, hdelta, hupdate⟩ := h.sample_bounds hx
  have hreward := hx.reward
  have hfirst : fpMul learnGamma (l.maxNext x.nextState) = (l.sample x).discounted :=
    int32_of_abs_lt (lt_of_le_of_lt hdiscounted (by decide))
  have htarget : int32 (x.reward + (l.sample x).discounted) = (l.sample x).target := by
    apply int32_of_abs_lt
    rw [abs_le] at hdiscounted
    rw [abs_lt]
    omega
  have hdiff : int32 ((l.sample x).target - (l.sample x).currentQ) = (l.sample x).delta :=
    int32_of_abs_lt (lt_of_le_of_lt hdelta (by decide))
  have hsecond : fpMul learnAlpha (l.sample x).delta = (l.sample x).update :=
    int32_of_abs_lt (lt_of_le_of_lt hupdate (by decide))
  have hnew : int32 ((l.sample x).currentQ + (l.sample x).update) = (l.sample x).newQ := by
    apply int32_of_abs_lt
    rw [abs_le] at hcurrent hupdate
    rw [abs_lt]
    omega
  have hcode : l.learnFrom x =
      { l with
        qTable := Function.update l.qTable x.state
          (Function.update (l.qTable x.state) x.action
            (clampQ (int32 ((l.sample x).currentQ +
              fpMul learnAlpha (int32 (int32 (x.reward +
                fpMul learnGamma (l.maxNext x.nextState)) - (l.sample x).currentQ)))))) } := rfl
  rw [hcode, hfirst, htarget, hdiff, hsecond, hnew]

namespace InRange

lemma learnFrom (h : l.InRange) {x : Experience} (hx : x.Fits) : (l.learnFrom x).InRange := by
  rw [learnFrom_eq h hx]
  refine { h with q := fun s hs a ha => ?_ }
  by_cases hstate : s = x.state
  · subst hstate
    by_cases haction : a = x.action
    · simp only [update_self, haction]
      exact clampQ_bounds _
    simp only [update_self, update_of_ne haction]
    exact h.q _ hs a ha
  simp only [update_of_ne hstate]
  exact h.q s hs a ha

lemma store (h : l.InRange) {state action nextState : Nat} {reward : Int}
  (hstate : state < learnStates) (haction : action < learnActions)
  (hnext : nextState < learnStates) (hreward : -2 ^ 15 ≤ reward ∧ reward < 2 ^ 15) :
  (l.store state action reward nextState).InRange where
  q := h.q
  replay := by
    intro i hi
    simp only [Learn.store]
    by_cases hcell : i = l.replayHead
    · rw [hcell, update_self]
      exact ⟨hstate, haction, hnext, hreward⟩
    rw [update_of_ne hcell]
    exact h.replay i hi
  head := Nat.mod_lt _ (by decide)
  count := by
    simp only [Learn.store]
    split_ifs with hroom
    · exact hroom
    · exact h.count

end InRange

lemma sampleIndex_lt {k : Nat} (hk : k < l.samples) : l.sampleIndex k < l.replayCount := by
  rw [samples] at hk
  apply Nat.mod_lt
  split_ifs at hk <;> omega

lemma sampled_fields (l : Learn) (k : Nat) :
  (l.sampled k).replay = l.replay ∧ (l.sampled k).replayCount = l.replayCount ∧
    (l.sampled k).totalUpdates = l.totalUpdates := by
  induction k with
  | zero => exact ⟨rfl, rfl, rfl⟩
  | succ k ih =>
    rw [sampled, range_succ, foldl_append, ← sampled]
    exact ih

lemma sampled_sampleIndex (l : Learn) (k i : Nat) :
  (l.sampled k).sampleIndex i = l.sampleIndex i := by
  obtain ⟨-, hcount, htotal⟩ := l.sampled_fields k
  rw [sampleIndex, sampleIndex, hcount, htotal]

lemma update_eq (l : Learn) : l.update = if !l.enabled ∨ l.replayCount < 4 then l else
      { l.sampled l.samples with
        totalUpdates := u32 ((l.sampled l.samples).totalUpdates + l.samples)
        episodes := u32 ((l.sampled l.samples).episodes + 1) } := rfl

namespace InRange

variable (h : l.InRange)
include h

lemma sampled_experience {k : Nat} (hk : k < l.samples) :
  ((l.sampled k).replay ((l.sampled k).sampleIndex k)).Fits := by
  rw [sampled_sampleIndex, (l.sampled_fields k).1]
  exact h.replay _ (lt_of_lt_of_le (sampleIndex_lt hk) h.count)

lemma sampled {k : Nat} (hk : k ≤ l.samples) : (l.sampled k).InRange := by
  induction k with
  | zero => exact h
  | succ k ih =>
    rw [Learn.sampled, range_succ, foldl_append, ← Learn.sampled]
    exact (ih (Nat.le_of_succ_le hk)).learnFrom (h.sampled_experience hk)

lemma update : l.update.InRange := by
  rw [update_eq]
  split_ifs
  · exact h
  · exact { h.sampled (le_refl l.samples) with }

end InRange
end Learn

/-! ## One inference -/

lemma learnGetState_lt (heapPct pagePct errorCount : Nat) :
  learnGetState heapPct pagePct errorCount < learnStates := by
  simp only [learnGetState]
  generalize (if errorCount > 10 then learnStates - 1
    else if errorCount > 5 then _ else _ : Nat) = state
  split_ifs with hlarge
  · decide
  · exact not_le.mp hlarge

lemma reward_step {r x : Int} (p : Prop) [Decidable p] (hr : -2 ^ 15 ≤ r ∧ r < 2 ^ 15) :
  -2 ^ 15 ≤ (if p then int16 x else r) ∧ (if p then int16 x else r) < 2 ^ 15 := by
  split_ifs
  · exact ⟨Int.le_bmod (by decide), Int.bmod_lt (by decide)⟩
  · exact hr

lemma learnCalculateReward_bounds (heapPct pagePct errors inferences : Nat) :
  -2 ^ 15 ≤ learnCalculateReward heapPct pagePct errors inferences ∧
    learnCalculateReward heapPct pagePct errors inferences < 2 ^ 15 := by
  repeat apply reward_step
  decide

namespace Engine

def stateAt (e : Engine) (st : Stats) : Nat :=
  learnGetState (percent st.heapUsed st.heapCap) (percent st.pagesUsed st.pagesTotal) e.ai.errors

/-- The learner at an inference once the experience is stored: the one that
`ai_learn_update` is called on. -/
def storedAt (e : Engine) (st : Stats) : Learn :=
  e.learn.store (e.stateAt st) (e.actionAt st)
    (learnCalculateReward (percent st.heapUsed st.heapCap) (percent st.pagesUsed st.pagesTotal)
      e.ai.errors (u32 (e.ai.inferences + 1)))
    (e.stateAt st)

variable {e : Engine}

lemma applyFix_learn (e : Engine) (fix : FixType) : (e.applyFix fix).learn = e.learn := by
  cases fix <;> rfl

lemma debugPass_learn (e : Engine) (st : Stats) : (e.debugPass st).learn = e.learn := by
  exact applyFix_learn _ _

lemma infer_learn (e : Engine) (st : Stats) : (e.infer st).learn =
    if u32 (e.ai.inferences + 1) % 10 = 0 then (e.storedAt st).update else e.storedAt st := by
  have hlearn : ((e.acted st).learnPass st (e.actionAt st)).learn =
      if u32 (e.ai.inferences + 1) % 10 = 0 then (e.storedAt st).update else e.storedAt st := rfl
  rw [infer_eq, ← hlearn]
  split_ifs
  · exact debugPass_learn _ st
  · rfl

lemma aiOnTick_learn (e : Engine) (st : Stats) : (e.aiOnTick st).learn = e.learn ∨
    ∃ e' : Engine, e'.learn = e.learn ∧ (e.aiOnTick st).learn = (e'.infer st).learn := by
  have hhealthy : e.aiHealthy.2.learn = e.learn := by
    rw [aiHealthy]
    split_ifs <;> rfl
  simp only [aiOnTick]
  split_ifs
  · exact .inl hhealthy
  · exact .inl hhealthy
  · refine .inr ⟨_, ?_, rfl⟩
    exact hhealthy
  · exact .inl hhealthy

lemma aiDecide_lt (x : Fin 3 → Int) : aiDecide x < learnActions := (policyNet.decide _ x).isLt

lemma actionAt_lt (e : Engine) (st : Stats) : e.actionAt st < learnActions := by
  rw [actionAt, chooseAction]
  split_ifs
  · exact aiDecide_lt _
  · exact Learn.chooseAction_lt _ _

variable (h : e.learn.InRange)
include h

lemma storedAt_inRange (st : Stats) : (e.storedAt st).InRange :=
  h.store (learnGetState_lt _ _ _) (e.actionAt_lt st) (learnGetState_lt _ _ _)
    (learnCalculateReward_bounds _ _ _ _)

lemma infer_inRange (st : Stats) : (e.infer st).learn.InRange := by
  have hstored := storedAt_inRange h st
  rw [infer_learn]
  split_ifs
  · exact hstored.update
  · exact hstored

lemma aiOnTick_inRange (st : Stats) : (e.aiOnTick st).learn.InRange := by
  rcases e.aiOnTick_learn st with heq | ⟨e', hsame, heq⟩
  · rw [heq]
    exact h
  rw [heq]
  exact infer_inRange (hsame ▸ h) st

end Engine

/-- What happens to the learner: timer ticks under any statistics of the memory managers
and any count of errors, and the calls of the shell. -/
inductive LearnEvent
  | tick (st : Stats) (errors : Nat)
  | aiReset
  | aiDisable
  | aiEnable
  | learnSetEnabled (enabled : Bool)

/-- The engine with its error counter at some value. -/
def Engine.withErrors (e : Engine) (errors : Nat) : Engine :=
  { e with ai := { e.ai with errors := u32 errors } }

def Engine.learnReact (e : Engine) : LearnEvent → Engine
  | .tick st errors => (e.withErrors errors).aiOnTick st
  | .aiReset => e.aiReset
  | .aiDisable => e.aiDisable
  | .aiEnable => e.aiEnable
  | .learnSetEnabled enabled => { e with learn := { e.learn with enabled := enabled } }

/-- Runs from `ai_init`, whatever was there before. -/
def learning : Machine Engine LearnEvent where
  init e := ∃ before : Engine, e = before.aiInit
  enabled _ _ := True
  step := Engine.learnReact

lemma learnReact_inRange {e : Engine} (h : e.learn.InRange) (ev : LearnEvent) :
  (e.learnReact ev).learn.InRange := by
  cases ev with
  | tick st errors => exact Engine.aiOnTick_inRange (e := e.withErrors errors) h st
  | aiReset => exact .init
  | aiDisable => exact h
  | aiEnable => exact h
  | learnSetEnabled enabled => exact { h with }

lemma inRange_of_reachable {e : Engine} (he : learning.Reachable e) : e.learn.InRange := by
  refine he.invariant (fun e => e.learn.InRange) ?_ fun e ev h _ => learnReact_inRange h ev
  rintro e ⟨before, rfl⟩
  exact .init

/-- In every state of every run the table and the ring are in range, and so is all that the next
inference uses, whatever the statistics and the count of errors. -/
theorem learner_stays_in_range {e : Engine} (he : learning.Reachable e) : e.learn.InRange ∧
    ∀ (st : Stats) (errors : Nat),
      (e.withErrors errors).stateAt st < learnStates ∧
      (e.withErrors errors).actionAt st < learnActions ∧
      ∀ k < ((e.withErrors errors).storedAt st).samples,
        let l := ((e.withErrors errors).storedAt st).sampled k
        l.InRange ∧ l.sampleIndex k < learnMemory ∧
          (l.replay (l.sampleIndex k)).Fits ∧ (l.sample (l.replay (l.sampleIndex k))).Fits := by
  have hrange := inRange_of_reachable he
  refine ⟨hrange, fun st errors => ⟨learnGetState_lt _ _ _, Engine.actionAt_lt _ st, ?_⟩⟩
  intro k hk
  have hstored := Engine.storedAt_inRange (e := e.withErrors errors) hrange st
  have hbefore := hstored.sampled hk.le
  have hfits := hstored.sampled_experience hk
  refine ⟨hbefore, ?_, hfits, hbefore.sample_fits hfits⟩
  rw [Learn.sampled_sampleIndex]
  exact lt_of_lt_of_le (Learn.sampleIndex_lt hk) hstored.count

def nearlyFull : Stats := ⟨15099494, 16777216, 3277, 32768⟩

theorem learner_stays_in_range_started :
    let e := (List.replicate 500 (.tick nearlyFull 1640)).foldl Engine.learnReact Engine.boot.aiInit
    0 < e.learn.totalUpdates ∧ e.learn.InRange := by
  have hstart : learning.Reachable Engine.boot.aiInit :=
    Machine.reachable_of_init ⟨Engine.boot, rfl⟩
  have hticked := hstart.run (Machine.run_foldl (fun _ _ => trivial) _
    (List.replicate 500 (.tick nearlyFull 1640)))
  exact ⟨by decide +kernel, (learner_stays_in_range hticked).1⟩

lemma int16_of_fits {x : Int} (hlow : -32768 ≤ x) (hhigh : x < 32768) : int16 x = x := by
  rw [int16, Int.bmod]
  split_ifs <;> omega

lemma int16_wraps {x : Int} (hlow : -98304 ≤ x) (hhigh : x < -32768) : int16 x = x + 65536 := by
  rw [int16, Int.bmod]
  split_ifs <;> omega

def rewardBase (heapPct pagePct inferences : Nat) : Int :=
  (if inferences > 0 then 10 else 0) + (if heapPct < 50 then 5 else 0) +
    (if pagePct < 50 then 5 else 0) - (if heapPct > 80 then 15 else 0) -
    (if pagePct > 80 then 15 else 0) - (if heapPct > 95 then 50 else 0)

lemma rewardBase_bounds (heapPct pagePct inferences : Nat) :
  -80 ≤ rewardBase heapPct pagePct inferences ∧ rewardBase heapPct pagePct inferences ≤ 20 := by
  rw [rewardBase]
  split_ifs <;> omega

lemma int16_u32 (n : Nat) : int16 (u32 n) = int16 n := by
  have hmod : ((u32 n : Nat) : Int) % 65536 = n % 65536 := by
    rw [u32]
    omega
  simp only [int16, Int.bmod]
  norm_num [hmod]

/-- The 16-bit sum wraps once, at its end. -/
lemma learnCalculateReward_eq (heapPct pagePct errors inferences : Nat) :
  learnCalculateReward heapPct pagePct errors inferences =
    int16 (rewardBase heapPct pagePct inferences - 20 * errors) := by
  have hadd : ∀ (p : Prop) [Decidable p] (y k : Int),
      (if p then int16 (int16 y + k) else int16 y) = int16 (y + if p then k else 0) := by
    intro p _ y k
    split_ifs
    · exact Int.bmod_add_bmod
    · rw [add_zero]
  have hsub : ∀ (p : Prop) [Decidable p] (y k : Int),
      (if p then int16 (int16 y - k) else int16 y) = int16 (y - if p then k else 0) := by
    intro p _ y k
    split_ifs
    · exact Int.bmod_sub_bmod
    · rw [sub_zero]
  have herrors : ∀ y : Int, (if errors > 0 then int16 (int16 y - int16 (u32 (errors * 20)))
      else int16 y) = int16 (y - 20 * errors) := by
    intro y
    rw [hsub, int16_u32]
    split_ifs with hsome
    · rw [show (20 * errors : Int) = (errors * 20 : Nat) by push_cast; ring]
      exact Int.sub_bmod_bmod
    · obtain rfl : errors = 0 := by omega
      rfl
  have hzero : (0 : Int) = int16 0 := rfl
  simp only [learnCalculateReward]
  rw [hzero]
  simp only [hadd, herrors, hsub]
  rw [rewardBase]
  congr 1
  ring

/-- Up to `n` errors the reward never grows with their number exactly if it still fits a
16-bit word with `n` errors. -/
theorem more_errors_never_pay_iff (heapPct pagePct inferences n : Nat) :
  (∀ e₁ e₂, e₁ ≤ e₂ → e₂ ≤ n → learnCalculateReward heapPct pagePct e₂ inferences ≤
      learnCalculateReward heapPct pagePct e₁ inferences) ↔
    20 * n ≤ 32768 + learnCalculateReward heapPct pagePct 0 inferences := by
  obtain ⟨hlow, hhigh⟩ := rewardBase_bounds heapPct pagePct inferences
  simp only [learnCalculateReward_eq]
  generalize rewardBase heapPct pagePct inferences = base at *
  rw [int16_of_fits (x := base - 20 * (0 : Nat)) (by omega) (by omega)]
  constructor
  · intro h
    by_contra hlarge
    -- The last number of errors that fits, and the next one.
    obtain ⟨m, hm⟩ : ∃ m : Nat, (m : Int) = (32768 + base) / 20 :=
      ⟨((32768 + base) / 20).toNat, by omega⟩
    have hpays := h m (m + 1) (by omega) (by omega)
    rw [int16_wraps (by omega) (by omega), int16_of_fits (by omega) (by omega)] at hpays
    omega
  intro hn e₁ e₂ hle hmost
  rw [int16_of_fits (by omega) (by omega), int16_of_fits (by omega) (by omega)]
  omega

theorem errors_pay : learnCalculateReward 0 0 1639 1 = -32760 ∧
    learnCalculateReward 0 0 1640 1 = 32756 := by
  decide

end Aeos.Ai
