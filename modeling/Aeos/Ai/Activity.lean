/-
# The activity that the policy network sees

The third input of the policy network is meant to be the number of ticks since the last
inference, in periods, less one.
-/

import Aeos.Ai.Learning
import Aeos.Ai.Ticks

namespace Aeos.Ai

open Lib List

namespace Engine

def perceived (e : Engine) (st : Stats) : Fin 3 → Int :=
  aiPerceive e.ai.ticksSinceInfer st.heapUsed st.heapCap st.pagesFree st.pagesTotal

def Counts (e : Engine) : Prop := e.aiIsHealthy = true ∧ e.ai.inTick = false

instance (e : Engine) : Decidable e.Counts := inferInstanceAs (Decidable (_ ∧ _))

def handed (e : Engine) (st : Stats) : Option (Fin 3 → Int) :=
  if e.Counts ∧ (e.ticked st).ai.ticksSinceInfer ≥ aiPeriodTicks then
    let e := e.ticked st
    some ({ e with ai := { e.ai with ticksSinceInfer := 0 } }.perceived st)
  else none

lemma perceived_activity {e : Engine} (hzero : e.ai.ticksSinceInfer = 0) (st : Stats) :
  e.perceived st 2 = -fpOne := by
  rw [perceived, hzero]
  show fpClamp (int32 (fpFromRatio 0 aiPeriodTicks - fpOne)) (-(2 * fpOne)) (2 * fpOne) = -fpOne
  decide

lemma handed_activity {e : Engine} {st : Stats} {x : Fin 3 → Int} (hx : e.handed st = some x) :
  x (Fin.last 2) = -fpOne := by
  rw [handed] at hx
  split_ifs at hx
  obtain rfl := Option.some.inj hx
  exact perceived_activity rfl st

end Engine

/-- An engine with the ticks counted since the last inference or initialisation, and at each
inference their number and the third input. -/
structure Watched where
  engine : Engine
  ticks : Nat
  seen : List (Nat × Int)

def Watched.react (w : Watched) : LearnEvent → Watched
  | .tick st errors =>
    let e := w.engine.withErrors errors
    let ticks := if e.Counts then w.ticks + 1 else w.ticks
    match e.handed st with
    | some x => ⟨e.aiOnTick st, 0, w.seen ++ [(ticks, x (Fin.last 2))]⟩
    | none => ⟨e.aiOnTick st, ticks, w.seen⟩
  | .aiReset => ⟨w.engine.aiReset, 0, w.seen⟩
  | ev => ⟨w.engine.learnReact ev, w.ticks, w.seen⟩

def watching : Machine Watched LearnEvent where
  init w := ∃ before : Engine, w = ⟨before.aiInit, 0, []⟩
  enabled _ _ := True
  step := Watched.react

def activityOf (ticks : Nat) : Int :=
  max (-(2 * fpOne)) (min (2 * fpOne) (ticks * fpOne / aiPeriodTicks - fpOne))

def SeesActivity (w : Watched) : Prop := ∀ p ∈ w.seen, p.2 = activityOf p.1

structure Steady (w : Watched) : Prop where
  inTick : w.engine.ai.inTick = false
  ticks : w.engine.ai.ticksSinceInfer = w.ticks
  ticksLt : w.ticks < aiPeriodTicks
  seen : ∀ p ∈ w.seen, p = (aiPeriodTicks, -fpOne)

namespace Steady

variable {w : Watched}

lemma period_pos : 0 < aiPeriodTicks := by decide

lemma tick (h : Steady w) (st : Stats) (errors : Nat) : Steady (w.react (.tick st errors)) := by
  set e := w.engine.withErrors errors with he
  have hin := h.inTick
  have hticks : e.ai.ticksSinceInfer = w.ticks := h.ticks
  have hlt := h.ticksLt
  rw [aiPeriodTicks] at hlt
  have hword : u32 (e.ai.ticksSinceInfer + 1) = w.ticks + 1 := by
    rw [hticks, u32]
    omega
  have hsince : (e.ticked st).ai.ticksSinceInfer = w.ticks + 1 := hword
  rw [Watched.react, ← he]
  cases hhealthy : e.aiIsHealthy with
  | false =>
    have hnot : ¬ e.Counts := fun hcounts =>
      Bool.false_ne_true (hhealthy.symm.trans hcounts.1)
    obtain ⟨-, hsame, -, hstays⟩ := Engine.aiOnTick_unhealthy hhealthy st
    have hnone : e.handed st = none := if_neg fun hboth => hnot hboth.1
    simp only [hnone, if_neg hnot]
    exact ⟨hstays.trans hin, hsame.trans hticks, h.ticksLt, h.seen⟩
  | true =>
    have hcounts : e.Counts := ⟨hhealthy, hin⟩
    have hcounted := Engine.aiOnTick_counted hhealthy hin st
    rcases Nat.lt_or_ge (w.ticks + 1) aiPeriodTicks with hwait | hinfer
    · have hnone : e.handed st = none := by
        refine if_neg fun hboth => ?_
        exact absurd hboth.2 (not_le.mpr (hsince ▸ hwait))
      simp only [hnone, if_pos hcounts]
      exact ⟨hcounted.inTick, (hcounted.waits (hword ▸ hwait)).1.trans hword, hwait, h.seen⟩
    obtain ⟨x, hx⟩ : ∃ x, e.handed st = some x := ⟨_, if_pos ⟨hcounts, hsince ▸ hinfer⟩⟩
    have hfull : w.ticks + 1 = aiPeriodTicks := le_antisymm (Nat.succ_le_of_lt h.ticksLt) hinfer
    simp only [hx, if_pos hcounts]
    refine ⟨hcounted.inTick, (hcounted.infers (hword ▸ hinfer)).1, period_pos, fun p hp => ?_⟩
    rcases mem_append.mp hp with hold | hnew
    · exact h.seen p hold
    · rw [mem_singleton.mp hnew, hfull, Engine.handed_activity hx]

lemma step (h : Steady w) (ev : LearnEvent) : Steady (w.react ev) := by
  cases ev with
  | tick st errors => exact h.tick st errors
  | aiReset => exact ⟨rfl, rfl, period_pos, h.seen⟩
  | _ => exact { h with }

lemma of_reachable (hw : watching.Reachable w) : Steady w := by
  refine hw.invariant Steady ?_ fun w ev h _ => h.step ev
  rintro w ⟨before, rfl⟩
  exact ⟨rfl, rfl, period_pos, fun p hp => absurd hp not_mem_nil⟩

end Steady

/-- Every inference is told that there was no activity at all, after a full period, so that a run
shows the network what it should exactly if it infers nothing. -/
theorem policy_sees_activity_iff {w : Watched} (hw : watching.Reachable w) :
  (∀ p ∈ w.seen, p = (aiPeriodTicks, -fpOne)) ∧ (SeesActivity w ↔ w.seen = []) := by
  have hseen := (Steady.of_reachable hw).seen
  refine ⟨hseen, fun hsees => ?_, fun hnone => ?_⟩
  · refine eq_nil_iff_forall_not_mem.mpr fun p hp => ?_
    have hactivity := hsees p hp
    rw [hseen p hp] at hactivity
    exact absurd hactivity (by decide)
  intro p hp
  rw [hnone] at hp
  exact absurd hp not_mem_nil

theorem policy_sees_activity_first_tick :
  SeesActivity (watching.step ⟨Engine.boot.aiInit, 0, []⟩ (.tick halfUsed 0)) := by
  have hstart : watching.Reachable ⟨Engine.boot.aiInit, 0, []⟩ :=
    Machine.reachable_of_init ⟨Engine.boot, rfl⟩
  have hticked := hstart.step (e := LearnEvent.tick halfUsed 0) trivial
  exact (policy_sees_activity_iff hticked).2.mpr (by decide +kernel)

/-- After a period of ticks the network is told of none. -/
theorem first_inference_sees_none :
  ((List.replicate 50 (LearnEvent.tick halfUsed 0)).foldl watching.step
    ⟨Engine.boot.aiInit, 0, []⟩).seen = [(50, -65536)] ∧ activityOf 50 = 0 := by
  constructor
  · decide +kernel
  · decide

end Aeos.Ai
