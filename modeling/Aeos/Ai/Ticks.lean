/-
# Timer ticks and AI ticks

`ai_init` subscribes `ai_on_tick` with the registry of `irq.c`, and so does `ai_reset`,
which calls it.
-/

import Aeos.Ai.Engine
import Aeos.Lib.Machine

namespace Aeos.Ai

open Lib List

/-! ## `ai_on_tick` -/

namespace Engine

variable {e : Engine} {st : Stats}

lemma learnPass_ai (e : Engine) (st : Stats) (action : Nat) :
  (e.learnPass st action).ai = e.ai := by
  rw [learnPass]

lemma applyFix_ai (e : Engine) (fix : FixType) :
  ∃ disabled, (e.applyFix fix).ai = { e.ai with disabled := disabled } := by
  cases fix with
  | disableAi => exact ⟨true, rfl⟩
  | _ => exact ⟨e.ai.disabled, rfl⟩

lemma debugPass_ai (e : Engine) (st : Stats) :
  ∃ disabled, (e.debugPass st).ai = { e.ai with disabled := disabled } := by
  exact applyFix_ai _ _

structure Inferred (before after : AiState) : Prop where
  ticksTotal : after.ticksTotal = before.ticksTotal
  ticksSinceInfer : after.ticksSinceInfer = 0
  inferences : after.inferences = u32 (before.inferences + 1)

lemma infer_inferred (e : Engine) (st : Stats) : Inferred e.ai (e.infer st).ai := by
  rw [infer]
  split_ifs
  · obtain ⟨disabled, hai⟩ := debugPass_ai _ _
    rw [hai, learnPass_ai]
    exact ⟨rfl, rfl, rfl⟩
  · exact ⟨rfl, rfl, rfl⟩

structure Counted (before after : AiState) : Prop where
  ticksTotal : after.ticksTotal = u32 (before.ticksTotal + 1)
  inTick : after.inTick = false
  infers : u32 (before.ticksSinceInfer + 1) ≥ aiPeriodTicks →
    after.ticksSinceInfer = 0 ∧ after.inferences = u32 (before.inferences + 1)
  waits : u32 (before.ticksSinceInfer + 1) < aiPeriodTicks →
    after.ticksSinceInfer = u32 (before.ticksSinceInfer + 1) ∧
      after.inferences = before.inferences

lemma aiOnTick_counted (h : e.aiIsHealthy = true) (hin : e.ai.inTick = false) (st : Stats) :
  Counted e.ai (e.aiOnTick st).ai := by
  rw [aiOnTick_of_healthy h hin]
  split_ifs with hperiod
  · have hinfer := infer_inferred (e.ticked st) st
    exact ⟨hinfer.ticksTotal, rfl, fun _ => ⟨hinfer.ticksSinceInfer, hinfer.inferences⟩,
      fun hlt => absurd hlt (not_lt.mpr hperiod)⟩
  · exact ⟨rfl, rfl, fun hge => absurd hge hperiod, fun _ => ⟨rfl, rfl⟩⟩

lemma aiOnTick_unhealthy (h : e.aiIsHealthy = false) (st : Stats) :
  (e.aiOnTick st).ai.ticksTotal = e.ai.ticksTotal ∧
    (e.aiOnTick st).ai.ticksSinceInfer = e.ai.ticksSinceInfer ∧
    (e.aiOnTick st).ai.inferences = e.ai.inferences ∧ (e.aiOnTick st).ai.inTick = e.ai.inTick := by
  have hbad : e.ai.magic ≠ aiMagic ∨ e.ai.disabled = true := by
    have hnot := of_decide_eq_false h
    by_contra hgood
    push Not at hgood
    exact hnot ⟨hgood.1, by simp [hgood.2]⟩
  rw [aiOnTick]
  rw [aiHealthy, if_pos hbad]
  exact ⟨rfl, rfl, rfl, rfl⟩

end Engine

lemma tickDispatch_eq_iterate (tasks : List TickTask) (st : Stats) (e : Engine) :
  tickDispatch tasks st e = (fun e => e.aiOnTick st)^[tasks.count .aiOnTick] e := by
  induction tasks generalizing e with
  | nil => rfl
  | cons task tasks ih =>
    rw [tickDispatch, foldl_cons, ← tickDispatch, ih]
    cases task with
    | aiOnTick =>
      rw [count_cons_self, Function.iterate_succ_apply]
      rfl
    | other id =>
      rfl

/-- The engine, the registry, whether the engine was ever initialised, and how many timer ticks it
was healthy for since its last inference or initialisation. -/
structure World where
  engine : Engine
  tasks : List TickTask
  initialised : Bool
  sinceInference : Nat

/-- Initialisations, resets, other subscribers, timer interrupts, and the disabled flag. -/
inductive TickEvent
  | aiInit
  | aiReset
  | subscribe (id : Nat)
  | tick (st : Stats)
  | aiDisable
  | aiEnable

def World.subscribed (w : World) (e : Engine) : World where
  engine := e
  tasks := tickSubscribe w.tasks .aiOnTick
  initialised := true
  sinceInference := 0

def World.react (w : World) : TickEvent → World
  | .aiInit => w.subscribed w.engine.aiInit
  | .aiReset => w.subscribed w.engine.aiReset
  | .subscribe id => { w with tasks := tickSubscribe w.tasks (.other id) }
  | .tick st =>
    let e := timerInterrupt w.tasks st w.engine
    { w with
      engine := e
      sinceInference :=
        if w.engine.aiIsHealthy = false then w.sinceInference
        else if e.ai.inferences = w.engine.ai.inferences then w.sinceInference + 1
        else 0 }
  | .aiDisable => { w with engine := w.engine.aiDisable }
  | .aiEnable => { w with engine := w.engine.aiEnable }

/-- The kernel from boot on: nothing is subscribed. -/
def ticking : Machine World TickEvent where
  init w := w = ⟨.boot, [], false, 0⟩
  enabled _ _ := True
  step := World.react

def World.callsPerTick (w : World) : Nat := w.tasks.count .aiOnTick

/-- Once the engine is initialised, a timer tick calls `ai_on_tick` once, which while healthy adds
one to `ticks_total` and infers exactly if a period has passed since the last inference. -/
def OneAiTick (w : World) : Prop :=
  w.initialised = true →
    w.callsPerTick = 1 ∧
      ∀ st, w.engine.aiIsHealthy = true →
        let ai := (timerInterrupt w.tasks st w.engine).ai
        ai.ticksTotal = u32 (w.engine.ai.ticksTotal + 1) ∧
          (ai.inferences = u32 (w.engine.ai.inferences + 1) ∧
              w.sinceInference + 1 = aiPeriodTicks ∨
            ai.inferences = w.engine.ai.inferences ∧ w.sinceInference + 1 < aiPeriodTicks)

/-- An initialisation finds `ai_on_tick` missing and room for it, or there and no room. -/
def subscribesOnce (w : World) : TickEvent → Prop
  | .aiInit | .aiReset =>
    (w.callsPerTick = 0 ∧ w.tasks.length < maxTickTasks) ∨
      (w.callsPerTick = 1 ∧ maxTickTasks ≤ w.tasks.length)
  | _ => True

/-- The function is subscribed once after the first initialisation, not before, and the engine's
own counter is the number of ticks since the last inference. -/
structure InStep (w : World) : Prop where
  before : w.initialised = false → w.callsPerTick = 0
  once : w.initialised = true → w.callsPerTick = 1
  inTick : w.initialised = true → w.engine.ai.inTick = false
  since : w.initialised = true → w.engine.ai.ticksSinceInfer = w.sinceInference
  sinceLt : w.initialised = true → w.sinceInference < aiPeriodTicks

lemma count_tickSubscribe (tasks : List TickTask) :
  (tickSubscribe tasks .aiOnTick).count .aiOnTick =
    if maxTickTasks ≤ tasks.length then tasks.count .aiOnTick else tasks.count .aiOnTick + 1 := by
  rw [tickSubscribe]
  split_ifs
  · rfl
  · rw [count_append, count_singleton_self]

lemma count_tickSubscribe_other (tasks : List TickTask) (id : Nat) :
  (tickSubscribe tasks (.other id)).count .aiOnTick = tasks.count .aiOnTick := by
  rw [tickSubscribe]
  split_ifs
  · rfl
  · rw [count_append, count_singleton, if_neg (by simp), Nat.add_zero]

namespace InStep

variable {w : World}

lemma boot : InStep ⟨.boot, [], false, 0⟩ where
  before _ := rfl
  once h := absurd h Bool.false_ne_true
  inTick h := absurd h Bool.false_ne_true
  since h := absurd h Bool.false_ne_true
  sinceLt h := absurd h Bool.false_ne_true

section
variable (h : InStep w)
include h

lemma timerInterrupt_eq (hinit : w.initialised = true) (st : Stats) :
  timerInterrupt w.tasks st w.engine =
    Engine.aiOnTick { w.engine with timer := timerHandler w.engine.timer } st := by
  rw [timerInterrupt, tickDispatch_eq_iterate, ← World.callsPerTick, h.once hinit]
  rfl

lemma word_since (hinit : w.initialised = true) :
  u32 (w.engine.ai.ticksSinceInfer + 1) = w.sinceInference + 1 := by
  have hlt := h.sinceLt hinit
  rw [aiPeriodTicks] at hlt
  rw [h.since hinit, u32]
  omega

lemma counted (hinit : w.initialised = true) (hhealthy : w.engine.aiIsHealthy = true) (st : Stats) :
  Engine.Counted w.engine.ai (timerInterrupt w.tasks st w.engine).ai := by
  rw [h.timerInterrupt_eq hinit]
  exact Engine.aiOnTick_counted (e := { w.engine with timer := timerHandler w.engine.timer })
    hhealthy (h.inTick hinit) st

lemma oneAiTick : OneAiTick w := by
  intro hinit
  refine ⟨h.once hinit, fun st hhealthy => ?_⟩
  have hcounted := h.counted hinit hhealthy st
  refine ⟨hcounted.ticksTotal, ?_⟩
  have hword := h.word_since hinit
  rcases Nat.lt_or_eq_of_le (Nat.succ_le_of_lt (h.sinceLt hinit)) with hlt | heq
  · exact .inr ⟨(hcounted.waits (hword ▸ hlt)).2, hlt⟩
  · exact .inl ⟨(hcounted.infers (hword ▸ heq.ge)).2, heq⟩

end

lemma subscribed {e : Engine} (hin : e.ai.inTick = false) (hsince : e.ai.ticksSinceInfer = 0)
  (hguard : (w.callsPerTick = 0 ∧ w.tasks.length < maxTickTasks) ∨
    (w.callsPerTick = 1 ∧ maxTickTasks ≤ w.tasks.length)) : InStep (w.subscribed e) where
  before h := absurd h (by simp [World.subscribed])
  once _ := by
    show (tickSubscribe w.tasks .aiOnTick).count .aiOnTick = 1
    rw [count_tickSubscribe, ← World.callsPerTick]
    rcases hguard with ⟨hnone, hroom⟩ | ⟨hone, hfull⟩
    · rw [if_neg (not_le.mpr hroom), hnone]
    · rw [if_pos hfull, hone]
  inTick _ := hin
  since _ := hsince
  sinceLt _ := by
    show 0 < aiPeriodTicks
    decide

section
variable (h : InStep w)
include h

lemma tick_healthy (hinit : w.initialised = true) (hhealthy : w.engine.aiIsHealthy = true)
    (st : Stats) : (w.react (.tick st)).engine.ai.inTick = false ∧
    (w.react (.tick st)).engine.ai.ticksSinceInfer = (w.react (.tick st)).sinceInference ∧
    (w.react (.tick st)).sinceInference < aiPeriodTicks := by
  have hcounted := h.counted hinit hhealthy st
  have hword := h.word_since hinit
  refine ⟨hcounted.inTick, ?_⟩
  simp only [World.react, hhealthy, Bool.true_eq_false, if_false]
  rcases Nat.lt_or_eq_of_le (Nat.succ_le_of_lt (h.sinceLt hinit)) with hlt | heq
  · obtain ⟨hsince, hsame⟩ := hcounted.waits (hword ▸ hlt)
    rw [if_pos hsame, hsince, hword]
    exact ⟨rfl, hlt⟩
  obtain ⟨hsince, hnext⟩ := hcounted.infers (hword ▸ heq.ge)
  have hchanged : u32 (w.engine.ai.inferences + 1) ≠ w.engine.ai.inferences := by
    rw [u32]
    omega
  rw [hnext, if_neg hchanged, hsince]
  exact ⟨rfl, by decide⟩

lemma tick_unhealthy (hinit : w.initialised = true) (hhealthy : w.engine.aiIsHealthy = false)
    (st : Stats) : (w.react (.tick st)).engine.ai.inTick = false ∧
    (w.react (.tick st)).engine.ai.ticksSinceInfer = (w.react (.tick st)).sinceInference ∧
    (w.react (.tick st)).sinceInference < aiPeriodTicks := by
  have hoff : Engine.aiIsHealthy { w.engine with timer := timerHandler w.engine.timer } = false :=
    hhealthy
  obtain ⟨-, hsince, -, hin⟩ := Engine.aiOnTick_unhealthy hoff st
  simp only [World.react, hhealthy, if_true, h.timerInterrupt_eq hinit]
  exact ⟨hin.trans (h.inTick hinit), hsince.trans (h.since hinit), h.sinceLt hinit⟩

lemma tick (st : Stats) : InStep (w.react (.tick st)) := by
  have hboth : w.initialised = true → _ := fun hinit => by
    cases hhealthy : w.engine.aiIsHealthy with
    | true => exact h.tick_healthy hinit hhealthy st
    | false => exact h.tick_unhealthy hinit hhealthy st
  exact ⟨h.before, h.once, fun hinit => (hboth hinit).1, fun hinit => (hboth hinit).2.1,
    fun hinit => (hboth hinit).2.2⟩

lemma step {e : TickEvent} (hguard : subscribesOnce w e) : InStep (w.react e) := by
  cases e with
  | aiInit => exact subscribed rfl rfl hguard
  | aiReset => exact subscribed rfl rfl hguard
  | subscribe id =>
    have hcount := count_tickSubscribe_other w.tasks id
    exact { h with
      before := fun hinit => hcount.trans (h.before hinit)
      once := fun hinit => hcount.trans (h.once hinit) }
  | tick st => exact h.tick st
  | _ => exact { h with }

end

lemma not_oneAiTick {e : TickEvent} (hguard : ¬ subscribesOnce w e) : ¬ OneAiTick (w.react e) := by
  have hcount : ∀ {e : Engine}, ¬ ((w.callsPerTick = 0 ∧ w.tasks.length < maxTickTasks) ∨
      (w.callsPerTick = 1 ∧ maxTickTasks ≤ w.tasks.length)) →
      ¬ OneAiTick (w.subscribed e) := by
    intro e hguard hone
    have hcalls : (tickSubscribe w.tasks .aiOnTick).count .aiOnTick = 1 := (hone rfl).1
    rw [count_tickSubscribe, ← World.callsPerTick] at hcalls
    apply hguard
    split_ifs at hcalls with hfull
    · exact .inr ⟨hcalls, hfull⟩
    · exact .inl ⟨by omega, not_le.mp hfull⟩
  cases e with
  | aiInit => exact hcount hguard
  | aiReset => exact hcount hguard
  | _ => exact absurd trivial hguard

end InStep

/-- In every run from boot, each timer tick after the first initialisation is one tick of the AI,
and inferences are a period apart, exactly if each `ai_init` and `ai_reset` meets the condition.
-/
theorem one_ai_tick_iff {w v : World} {es : List TickEvent} (hinit : ticking.init w)
  (hrun : ticking.Run w es v) :
  ticking.Throughout OneAiTick w es ↔ (ticking.restrict subscribesOnce).Run w es v := by
  have hstart : InStep w := by
    rw [hinit]
    exact InStep.boot
  refine hrun.throughout_iff (fun w (h : InStep w) => h.oneAiTick) ?_ ?_ hstart
  · exact fun _ _ h _ hguard => h.step hguard
  · exact fun _ _ _ _ hguard => InStep.not_oneAiTick hguard

def bootWorld : World := ⟨.boot, [], false, 0⟩

def halfUsed : Stats := ⟨8388608, 16777216, 16384, 32768⟩

theorem one_ai_tick_initialised : ticking.Throughout OneAiTick bootWorld
    [.subscribe 0, .aiInit, .tick halfUsed, .aiDisable, .tick halfUsed, .aiEnable] := by
  apply (one_ai_tick_iff rfl (Machine.run_foldl (fun _ _ => trivial) _ _)).mpr
  exact .cons ⟨trivial, trivial⟩ (.cons ⟨trivial, .inl (by decide)⟩ (.cons ⟨trivial, trivial⟩
    (.cons ⟨trivial, trivial⟩ (.cons ⟨trivial, trivial⟩ (.cons ⟨trivial, trivial⟩ (.nil _))))))

/-- After a reset one timer tick is counted twice. -/
theorem reset_counts_twice : ∃ w, ticking.Run bootWorld [.aiInit, .aiReset, .tick halfUsed] w ∧
    w.engine.timer.ticks = 1 ∧ w.engine.ai.ticksTotal = 2 := by
  refine ⟨_, Machine.run_foldl (fun _ _ => trivial) _ _, ?_, ?_⟩
  · decide +kernel
  · decide +kernel

end Aeos.Ai
