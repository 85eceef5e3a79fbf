/-
# The timer's rate and the policy's

The rate is held twice: the timer has the one it is armed at, and the AI engine the one
it reports and reasons from. An inference changes both.
-/

import Aeos.Ai.Ticks

namespace Aeos.Ai

open Lib List Function

def IssueType.Harmless (type : IssueType) : Prop := type = .memLeak ∨ type = .none

namespace Debug

def Calm (d : Debug) : Prop := ∀ i < d.issueCount, (d.issues i).type.Harmless

variable {d : Debug}

lemma Calm.addIssue (h : d.Calm) (severity : Nat) : (d.addIssue .memLeak severity).Calm := by
  rw [Debug.addIssue]
  cases hfind : d.findIssue .memLeak with
  | some i =>
    intro j hj
    by_cases hji : j = i
    · subst hji
      simp only [update_self]
      exact h j hj
    simp only [update_of_ne hji]
    exact h j hj
  | none =>
    split_ifs
    · intro j hj
      by_cases hlast : j = d.issueCount
      · subst hlast
        simp only [update_self]
        exact .inl rfl
      simp only [update_of_ne hlast]
      exact h j (Nat.lt_of_le_of_ne (Nat.le_of_lt_succ hj) hlast)
    · exact h

lemma Calm.scan (h : d.Calm) {r : Readings} (herrors : r.errors = 0) (hhz : 50 ≤ r.hz)
  (hcmt : ¬ (r.cmtLevel = 0 ∧ r.inferences > 20)) : (d.scan r).Calm := by
  have hrate : u32 (r.errors * 100) / r.inferences = 0 := by
    rw [herrors]
    exact Nat.zero_div _
  have hcounted : Calm { d with scanCount := u32 (d.scanCount + 1) } := h
  simp only [Debug.scan, hrate, gt_iff_lt, Nat.not_lt_zero, if_false, ite_self]
  rw [if_neg hcmt, if_neg (not_lt.mpr hhz)]
  split_ifs
  · exact h
  · exact hcounted.addIssue 2
  · exact hcounted.addIssue 1
  · exact hcounted

lemma findIssueToFix_lt (hsome : d.issueCount ≠ 0) : d.findIssueToFix < d.issueCount := by
  have hfold : ∀ (l : List Nat) (best : Nat × Nat), best.2 < d.issueCount →
      (∀ i ∈ l, i < d.issueCount) →
      (l.foldl (fun (best : Nat × Nat) i =>
        if (d.issues i).severity > best.1 then ((d.issues i).severity, i) else best) best).2 <
        d.issueCount := by
    intro l
    induction l with
    | nil => exact fun best hbest _ => hbest
    | cons i l ih =>
      intro best hbest hall
      rw [foldl_cons]
      apply ih
      · split_ifs
        · exact hall i mem_cons_self
        · exact hbest
      · exact fun j hj => hall j (mem_cons_of_mem i hj)
  apply hfold
  · exact Nat.pos_of_ne_zero hsome
  · exact fun i hi => mem_range.mp hi

lemma Calm.autofix (h : d.Calm) :
  (d.autofix.1 = .clearMemory ∨ d.autofix.1 = .none) ∧ d.autofix.2.Calm := by
  simp only [Debug.autofix]
  split_ifs with hoff hempty hnone hfix hsuccess
  · exact ⟨.inr rfl, h⟩
  · exact ⟨.inr rfl, h⟩
  · exact ⟨.inr rfl, h⟩
  · exact ⟨.inr rfl, h⟩
  · have hleak := (h _ (findIssueToFix_lt hempty)).resolve_right hnone
    refine ⟨.inl (by rw [hleak]; rfl), fun j hj => ?_⟩
    by_cases hfixed : j = d.findIssueToFix
    · subst hfixed
      simp only [update_self]
      exact .inr rfl
    simp only [update_of_ne hfixed]
    exact h j hj
  have hleak := (h _ (findIssueToFix_lt hempty)).resolve_right hnone
  rw [hleak] at hsuccess
  exact absurd rfl hsuccess

end Debug

variable {hz : Nat}

lemma aiAct_bounds (hlow : 20 ≤ hz) (hhigh : hz ≤ 200) (action cmtLevel : Nat) :
  20 ≤ aiAct action cmtLevel hz ∧ aiAct action cmtLevel hz ≤ 200 := by
  simp only [aiAct, u32]
  split_ifs <;> omega

lemma le_aiAct (hlow : 75 ≤ hz) (hhigh : hz ≤ 200) (action cmtLevel : Nat) :
  50 ≤ aiAct action cmtLevel hz := by
  simp only [aiAct, u32]
  split_ifs <;> omega

lemma timerSetHz_hz (t : Timer) (hlow : 20 ≤ hz) (hhigh : hz ≤ 200) :
  (timerSetHz t hz).hz = hz := by
  simp only [timerSetHz]
  split_ifs <;> omega

structure InRate (e : Engine) : Prop where
  agree : e.timer.hz = e.ai.hz
  low : 20 ≤ e.ai.hz
  high : e.ai.hz ≤ 200
  healthy : e.aiIsHealthy = true
  errors : e.ai.errors = 0
  calm : e.debug.Calm

namespace InRate

variable {e : Engine} (h : InRate e)
include h

lemma ticked (st : Stats) : InRate (e.ticked st) := { h with }

lemma leaveTick : InRate e.leaveTick := { h with }

lemma acted (st : Stats) : InRate (e.acted st) := by
  obtain ⟨hlow, hhigh⟩ := aiAct_bounds h.low h.high (e.actionAt st) e.cmt.level
  exact { h with agree := timerSetHz_hz e.timer hlow hhigh, low := hlow, high := hhigh }

lemma learnPass (st : Stats) (action : Nat) : InRate (e.learnPass st action) :=
  { h with }

lemma debugPass (st : Stats) (hhz : 50 ≤ e.ai.hz)
    (hcmt : ¬ (e.cmt.level = 0 ∧ e.ai.inferences > 20)) : InRate (e.debugPass st) := by
  have hscan := h.calm.scan (r := ⟨st.heapUsed, st.heapCap, e.ai.errors, e.ai.inferences,
    e.ai.hz, e.cmt.level⟩) h.errors hhz hcmt
  obtain ⟨hfix, hcalm⟩ := hscan.autofix
  have hfixed : e.debugPass st = { e with debug := (e.debug.scan ⟨st.heapUsed, st.heapCap,
      e.ai.errors, e.ai.inferences, e.ai.hz, e.cmt.level⟩).autofix.2 } := by
    simp only [Engine.debugPass]
    rcases hfix with hfix | hfix <;> rw [hfix] <;> rfl
  rw [hfixed]
  exact { h with calm := hcalm }

lemma infer (st : Stats) (hguard : u32 (e.ai.inferences + 1) % 20 = 0 → 75 ≤ e.ai.hz ∧
    (u32 (e.ai.inferences + 1) ≤ 20 ∨ e.cmt.level ≠ 0)) : InRate (e.infer st) := by
  have hlearned := (h.acted st).learnPass st (e.actionAt st)
  rw [Engine.infer_eq]
  split_ifs with hdebug
  · obtain ⟨hrate, hcmt⟩ := hguard hdebug
    apply hlearned.debugPass
    · exact le_aiAct hrate h.high (e.actionAt st) e.cmt.level
    rintro ⟨hzero, hmany⟩
    rcases hcmt with hfew | hlevel
    · exact absurd hmany (not_lt.mpr hfew)
    · exact hlevel hzero
  · exact hlearned

end InRate

inductive RateEvent
  | aiInit
  | aiReset
  | onTick (st : Stats)

def Engine.rateReact (e : Engine) : RateEvent → Engine
  | .aiInit => e.aiInit
  | .aiReset => e.aiReset
  | .onTick st => e.aiOnTick st

/-- Runs that begin with `ai_init` and a timer at its default rate. -/
def rated : Machine Engine RateEvent where
  init e := ∃ before : Engine, before.timer.hz = 100 ∧ e = before.aiInit
  enabled _ _ := True
  step := Engine.rateReact

def RatesAgree (e : Engine) : Prop := e.timer.hz = e.ai.hz

def Engine.debugsNow (e : Engine) : Prop :=
  e.ai.inTick = false ∧ u32 (e.ai.ticksSinceInfer + 1) ≥ aiPeriodTicks ∧
    u32 (e.ai.inferences + 1) % 20 = 0

/-- The condition: an initialisation finds the timer at its default rate, and the debugger finds a
rate of at least 75 Hz and, after 20 inferences, the CMT engine above level 0. -/
def inStepGuard (e : Engine) : RateEvent → Prop
  | .aiInit | .aiReset => e.timer.hz = 100
  | .onTick st => e.debugsNow → 75 ≤ e.ai.hz ∧
      (u32 (e.ai.inferences + 1) ≤ 20 ∨
        (e.cmt.onTick st e.ai.inferences e.ai.errors e.ai.action).level ≠ 0)

namespace InRate

variable {e : Engine}

lemma aiInit (htimer : e.timer.hz = 100) : InRate e.aiInit where
  agree := htimer
  low := show 20 ≤ 100 by decide
  high := show 100 ≤ 200 by decide
  healthy := rfl
  errors := rfl
  calm _ hi := absurd hi (Nat.not_lt_zero _)

lemma onTick (h : InRate e) {st : Stats} (hguard : inStepGuard e (.onTick st)) :
  InRate (e.aiOnTick st) := by
  by_cases hin : e.ai.inTick = false
  · rw [Engine.aiOnTick_of_healthy h.healthy hin]
    split_ifs with hperiod
    · apply leaveTick
      exact (h.ticked st).infer st fun hdebug => hguard ⟨hin, hperiod, hdebug⟩
    · exact (h.ticked st).leaveTick
  have hsame : e.aiOnTick st = e := by
    rw [Engine.aiOnTick, Engine.aiHealthy_of_healthy h.healthy]
    simp only [hin, Bool.not_true, Bool.false_eq_true, if_false, if_true]
  rw [hsame]
  exact h

lemma step (h : InRate e) {ev : RateEvent} (hguard : inStepGuard e ev) :
  InRate (e.rateReact ev) := by
  cases ev with
  | aiInit => exact aiInit hguard
  | aiReset => exact { aiInit hguard with }
  | onTick st => exact h.onTick hguard

end InRate

/-- In every run whose steps meet the condition, the timer runs at the rate that the AI
engine reports, after every call. -/
theorem rates_agree_in_step {e : Engine} (he : (rated.restrict inStepGuard).Reachable e) :
  RatesAgree e := by
  apply InRate.agree
  apply he.invariant InRate
  · rintro e ⟨before, htimer, rfl⟩
    exact .aiInit htimer
  intro e ev h henabled
  exact h.step henabled.2

instance (e : Engine) (ev : RateEvent) : Decidable ((rated.restrict inStepGuard).enabled e ev) :=
  match ev with
  | .aiInit | .aiReset => (inferInstance : Decidable (True ∧ _ = _))
  | .onTick _ => (inferInstance : Decidable (True ∧ (_ ∧ _ ∧ _ → _ ∧ (_ ∨ _))))

theorem rates_agree_in_step_tick :
    let e := (List.replicate 50 (.onTick halfUsed)).foldl Engine.rateReact Engine.boot.aiInit
    e.timer.hz = 88 ∧ RatesAgree e := by
  have hrun := Machine.run_of_admitsAll (M := rated.restrict inStepGuard) Engine.boot.aiInit
    (List.replicate 50 (.onTick halfUsed)) (by decide +kernel)
  exact ⟨by decide +kernel, rates_agree_in_step ⟨_, _, ⟨.boot, rfl, rfl⟩, hrun⟩⟩

/-- After the first inference, which lowers the rate to 88 Hz, a reset makes the engine
report 100 Hz while the timer stays where it is. -/
theorem reset_leaves_timer :
  ∃ e, rated.Run Engine.boot.aiInit (List.replicate 50 (.onTick halfUsed) ++ [.aiReset]) e ∧
    e.timer.hz = 88 ∧ e.ai.hz = 100 := by
  refine ⟨_, Machine.run_foldl (fun _ _ => trivial) _ _, ?_, ?_⟩
  · decide +kernel
  · decide +kernel

end Aeos.Ai
