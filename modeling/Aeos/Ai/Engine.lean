/-
# The AI engine of the kernel

`ai_api.c` on top of its parts: what one call of `ai_on_tick` does, with the learning
engine, the policy network, the CMT engine and the debugger it calls, and the timer it
sets.
-/

import Aeos.Ai.Core

namespace Aeos.Ai

open Lib

def aiMagic : Nat := 0x41493130

structure HistEntry where
  tick : Nat
  action : Nat
deriving DecidableEq

structure AiState where
  magic : Nat
  ticksTotal : Nat
  ticksSinceInfer : Nat
  inferences : Nat
  errors : Nat
  hz : Nat
  action : Nat
  disabled : Bool
  verbose : Bool
  inTick : Bool
  hist : Nat → HistEntry
  histCount : Nat

structure Timer where
  ticks : Nat
  hz : Nat

/-- The engine with everything it calls. -/
structure Engine where
  ai : AiState
  learn : Learn
  debug : Debug
  cmt : Cmt
  timer : Timer

def timerSetHz (t : Timer) (hz : Nat) : Timer :=
  let hz := if hz < 10 then 10 else hz
  let hz := if hz > 500 then 500 else hz
  { t with hz := hz }

def timerHandler (t : Timer) : Timer := { t with ticks := (t.ticks + 1) % 2 ^ 64 }

namespace Engine

def boot : Engine where
  ai := { magic := 0, ticksTotal := 0, ticksSinceInfer := 0, inferences := 0, errors := 0,
          hz := 0, action := 0, disabled := false, verbose := false, inTick := false,
          hist := fun _ => ⟨0, 0⟩, histCount := 0 }
  learn := { Learn.init with qTable := fun _ _ => 0, enabled := false }
  debug := { Debug.init with enabled := false, autoFix := false }
  cmt := Cmt.init
  timer := ⟨0, 100⟩

def aiHealthy (e : Engine) : Bool × Engine :=
  if e.ai.magic ≠ aiMagic ∨ e.ai.disabled then
    let errors := if e.ai.magic = aiMagic then u32 (e.ai.errors + 1) else e.ai.errors
    (false, { e with ai := { e.ai with errors := errors, disabled := true } })
  else (true, e)

def aiIsHealthy (e : Engine) : Bool := e.ai.magic = aiMagic ∧ !e.ai.disabled

def aiInit (e : Engine) : Engine :=
  { e with
    ai := { e.ai with
      magic := aiMagic, ticksTotal := 0, ticksSinceInfer := 0, inferences := 0, errors := 0,
      hz := 100, action := aiActSustain, disabled := false, verbose := false, inTick := false,
      histCount := 0 }
    learn := .init
    debug := .init }

def aiReset (e : Engine) : Engine :=
  let v := e.ai.verbose
  let e := e.aiInit
  { e with ai := { e.ai with verbose := v } }

def applyFix (e : Engine) : FixType → Engine
  | .resetTimer => { e with timer := timerSetHz e.timer 100 }
  | .adjustHz => { e with timer := timerSetHz e.timer 150 }
  | .disableAi => { e with ai := { e.ai with disabled := true } }
  | _ => e

def chooseAction (e : Engine) (st : Stats) : Nat :=
  let heapPct := percent st.heapUsed st.heapCap
  let pagePct := percent st.pagesUsed st.pagesTotal
  let state := learnGetState heapPct pagePct e.ai.errors
  let action := e.learn.chooseAction state
  let x := aiPerceive e.ai.ticksSinceInfer st.heapUsed st.heapCap st.pagesFree st.pagesTotal
  let nnAction := aiDecide x
  if action = aiActSustain ∧ nnAction ≠ aiActSustain then nnAction else action

def debugPass (e : Engine) (st : Stats) : Engine :=
  let d := e.debug.scan
    { heapUsed := st.heapUsed, heapCap := st.heapCap, errors := e.ai.errors,
      inferences := e.ai.inferences, hz := e.ai.hz, cmtLevel := e.cmt.level }
  let (fix, d) := d.autofix
  { e with debug := d }.applyFix fix

def learnPass (e : Engine) (st : Stats) (action : Nat) : Engine :=
  let heapPct := percent st.heapUsed st.heapCap
  let pagePct := percent st.pagesUsed st.pagesTotal
  let state := learnGetState heapPct pagePct e.ai.errors
  let reward := learnCalculateReward heapPct pagePct e.ai.errors e.ai.inferences
  let nextState := learnGetState heapPct pagePct e.ai.errors
  let learn := e.learn.store state action reward nextState
  { e with learn := if e.ai.inferences % 10 = 0 then learn.update else learn }

def infer (e : Engine) (st : Stats) : Engine :=
  let e := { e with ai := { e.ai with ticksSinceInfer := 0 } }
  let action := e.chooseAction st
  let hz := aiAct action e.cmt.level e.ai.hz
  let e := { e with
    ai := { e.ai with
      hz := hz
      action := action
      inferences := u32 (e.ai.inferences + 1)
      hist := Function.update e.ai.hist (e.ai.histCount % aiHistLen) ⟨e.ai.ticksTotal, action⟩
      histCount := u32 (e.ai.histCount + 1) }
    timer := timerSetHz e.timer hz }
  let e := e.learnPass st action
  if e.ai.inferences % 20 = 0 then e.debugPass st else e

def aiOnTick (e : Engine) (st : Stats) : Engine :=
  let (healthy, e) := e.aiHealthy
  if !healthy then e
  else if e.ai.inTick then e
  else
    let e := { e with
      ai := { e.ai with
        inTick := true
        ticksTotal := u32 (e.ai.ticksTotal + 1)
        ticksSinceInfer := u32 (e.ai.ticksSinceInfer + 1) } }
    let e := { e with cmt := e.cmt.onTick st e.ai.inferences e.ai.errors e.ai.action }
    let e := if e.ai.ticksSinceInfer ≥ aiPeriodTicks then e.infer st else e
    { e with ai := { e.ai with inTick := false } }

def actionAt (e : Engine) (st : Stats) : Nat :=
  { e with ai := { e.ai with ticksSinceInfer := 0 } }.chooseAction st

def acted (e : Engine) (st : Stats) : Engine :=
  let hz := aiAct (e.actionAt st) e.cmt.level e.ai.hz
  { e with
    ai := { e.ai with
      ticksSinceInfer := 0
      hz := hz
      action := e.actionAt st
      inferences := u32 (e.ai.inferences + 1)
      hist := Function.update e.ai.hist (e.ai.histCount % aiHistLen)
        ⟨e.ai.ticksTotal, e.actionAt st⟩
      histCount := u32 (e.ai.histCount + 1) }
    timer := timerSetHz e.timer hz }

lemma infer_eq (e : Engine) (st : Stats) : e.infer st = if u32 (e.ai.inferences + 1) % 20 = 0 then
      ((e.acted st).learnPass st (e.actionAt st)).debugPass st
    else (e.acted st).learnPass st (e.actionAt st) := rfl

/-- A tick up to the inference: it is counted, and the CMT engine has had its own. -/
def ticked (e : Engine) (st : Stats) : Engine :=
  { e with
    ai := { e.ai with
      inTick := true
      ticksTotal := u32 (e.ai.ticksTotal + 1)
      ticksSinceInfer := u32 (e.ai.ticksSinceInfer + 1) }
    cmt := e.cmt.onTick st e.ai.inferences e.ai.errors e.ai.action }

def leaveTick (e : Engine) : Engine := { e with ai := { e.ai with inTick := false } }

lemma aiHealthy_of_healthy {e : Engine} (h : e.aiIsHealthy = true) : e.aiHealthy = (true, e) := by
  obtain ⟨hmagic, henabled⟩ := of_decide_eq_true h
  rw [aiHealthy, if_neg]
  rintro (hbad | hdisabled)
  · exact hbad hmagic
  · simp [hdisabled] at henabled

lemma aiOnTick_of_healthy {e : Engine} (h : e.aiIsHealthy = true) (hin : e.ai.inTick = false)
  (st : Stats) : e.aiOnTick st =
    (if u32 (e.ai.ticksSinceInfer + 1) ≥ aiPeriodTicks then (e.ticked st).infer st
      else e.ticked st).leaveTick := by
  rw [aiOnTick, aiHealthy_of_healthy h]
  simp only [hin, Bool.not_true, Bool.false_eq_true, if_false]
  rfl

def aiDisable (e : Engine) : Engine := { e with ai := { e.ai with disabled := true } }

def aiEnable (e : Engine) : Engine :=
  { e with ai := { e.ai with disabled := false, magic := aiMagic } }

end Engine

/-! ## The tick registry of `irq.c` -/

def maxTickTasks : Nat := 4

inductive TickTask
  | aiOnTick
  | other (id : Nat)
deriving DecidableEq

def tickSubscribe (tasks : List TickTask) (fn : TickTask) : List TickTask :=
  if tasks.length ≥ maxTickTasks then tasks else tasks ++ [fn]

def TickTask.run (st : Stats) (e : Engine) : TickTask → Engine
  | .aiOnTick => e.aiOnTick st
  | .other _ => e

def tickDispatch (tasks : List TickTask) (st : Stats) (e : Engine) : Engine :=
  tasks.foldl (TickTask.run st) e

def timerInterrupt (tasks : List TickTask) (st : Stats) (e : Engine) : Engine :=
  tickDispatch tasks st { e with timer := timerHandler e.timer }

end Aeos.Ai
