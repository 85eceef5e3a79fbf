/-
# The two kernels of the SDK

Two implementations of one interface: `MockKernel` of `mock.py`, a Python object, and
`NativeKernel` of `ffi.py`, a wrapper around the static variables of `aeos_kernel.c`. A call
that raises an exception returns its message and no state.
-/

import Aeos.Lib.Machine
import Aeos.Sdk.Network

namespace Aeos.Sdk

open Lib

structure HistEntry where
  tick : Nat
  action : Int
deriving DecidableEq

structure MemoryStats where
  totalPages : Int
  freePages : Int
deriving DecidableEq

structure TimerInfo where
  ticks : Nat
  hz : Nat
deriving DecidableEq

structure SystemVitals where
  memory : MemoryStats
  timer : TimerInfo
  aiInferences : Nat
  aiLastAction : String
  aiPolicyHz : Nat
deriving DecidableEq

structure AiReport where
  lastAction : String
  policyHz : Nat
  inferences : Nat
  history : List HistEntry
deriving DecidableEq

def AiReport.actions (r : AiReport) : List Int := r.history.map HistEntry.action

/-! ## `mock.py` -/

structure AIDecision where
  inputs : Fin 3 → Int
  hidden : Fin 8 → Int
  action : Action
  hz : Nat

/-- The fields of `MockKernel`. `tickSource` is the next number of `_tick_source`. -/
structure Mock where
  total : Int
  free : Int
  hz : Nat
  ticks : Nat
  inferences : Nat
  ticksSinceInfer : Nat
  lastAction : String
  tickSource : Nat
  aiDisabled : Bool
  aiHistory : List HistEntry
  aiLastDecision : Option AIDecision
  heapUsed : Int
  heapCap : Int

namespace Mock

def new (totalPages reservedPages timerHz : Int) : Except String Mock :=
  if totalPages ≤ 0 then .error "total_pages must be positive"
  else if ¬ (10 ≤ timerHz ∧ timerHz ≤ 500) then .error "timer_hz must be within [10, 500]"
  else .ok
    { total := totalPages, free := max 0 (totalPages - reservedPages), hz := timerHz.toNat,
      ticks := 0, inferences := 0, ticksSinceInfer := 0, lastAction := "SUSTAIN",
      tickSource := 0, aiDisabled := false, aiHistory := [], aiLastDecision := none,
      heapUsed := 0, heapCap := 16 * 1024 * 1024 }

def default : Mock :=
  { total := 32768, free := 28160, hz := 100, ticks := 0, inferences := 0, ticksSinceInfer := 0,
    lastAction := "SUSTAIN", tickSource := 0, aiDisabled := false, aiHistory := [],
    aiLastDecision := none, heapUsed := 0, heapCap := 16777216 }

lemma new_default : new 32768 4608 100 = .ok default := rfl

def runInference (net : Net 3 8 3) (s : Mock) : AIDecision × Mock :=
  let x := Py.perceive s.heapUsed s.heapCap s.free s.total s.ticksSinceInfer
  let (hidden, action) := Py.decide net x
  let hz := Py.act s.hz action
  let decision : AIDecision := { inputs := x, hidden := hidden, action := action, hz := hz }
  let history := s.aiHistory ++ [⟨s.ticks, action.id⟩]
  (decision,
    { s with
      hz := hz
      lastAction := action.name
      inferences := s.inferences + 1
      aiLastDecision := some decision
      aiHistory :=
        if history.length > aiHistLen then history.drop (history.length - aiHistLen)
        else history })

def tick (net : Net 3 8 3) (s : Mock) : Mock :=
  if s.aiDisabled then s
  else if s.ticksSinceInfer + 1 ≥ aiPeriodTicks then
    (runInference net { s with ticksSinceInfer := 0 }).2
  else { s with ticksSinceInfer := s.ticksSinceInfer + 1 }

def memoryStats (s : Mock) : MemoryStats := ⟨s.total, s.free⟩

def timerInfo (net : Net 3 8 3) (s : Mock) : TimerInfo × Mock :=
  let s := tick net { s with ticks := s.tickSource, tickSource := s.tickSource + 1 }
  (⟨s.ticks, s.hz⟩, s)

def setTimerHz (s : Mock) (hz : Int) : Except String Mock :=
  if ¬ (10 ≤ hz ∧ hz ≤ 500) then .error "timer rate must be within [10, 500] Hz"
  else .ok { s with hz := hz.toNat }

def vitals (net : Net 3 8 3) (s : Mock) : SystemVitals × Mock :=
  let memory := s.memoryStats
  let (timer, s) := timerInfo net s
  (⟨memory, timer, s.inferences, s.lastAction, s.hz⟩, s)

def aiForceInference (net : Net 3 8 3) (s : Mock) : AIDecision × Mock :=
  runInference net { s with ticksSinceInfer := aiPeriodTicks }

def aiDisable (s : Mock) : Mock := { s with aiDisabled := true }

def aiEnable (s : Mock) : Mock := { s with aiDisabled := false }

def allocatePages (s : Mock) (count : Int) : Except String Mock :=
  if count < 0 ∨ count > s.free then .error "cannot allocate requested pages"
  else .ok { s with free := s.free - count }

def setHeapUsed (s : Mock) (used : Int) : Mock := { s with heapUsed := max 0 used }

def fireAiInference (s : Mock) (action : String) : Mock :=
  { s with inferences := s.inferences + 1, lastAction := action }

def report (s : Mock) : AiReport := ⟨s.lastAction, s.hz, s.inferences, s.aiHistory⟩

end Mock

/-! ## `aeos_kernel.c` and `ffi.py` -/

/-- The static variables of `aeos_kernel.c`. The history is an array of `AI_HIST_LEN`
entries. -/
structure Native where
  totalPages : Nat
  freePages : Nat
  ticks : Nat
  hz : Nat
  inferences : Nat
  readsSinceInference : Nat
  lastAction : String
  aiHistory : Nat → HistEntry
  aiHistCount : Nat
  aiDisabledFlag : Bool

namespace Native

def loaded : Native where
  totalPages := 32768
  freePages := 32768 - 4608
  ticks := 0
  hz := 100
  inferences := 0
  readsSinceInference := 0
  lastAction := "SUSTAIN"
  aiHistory _ := ⟨0, 0⟩
  aiHistCount := 0
  aiDisabledFlag := false

def usedPages (s : Native) : Nat := u32 (s.totalPages + (2 ^ 32 - s.freePages))

def aiPerceive (s : Native) : Fin 3 → Int :=
  let window := aiPeriodTicks
  ![fpFromRatio s.usedPages s.totalPages,
    fpFromRatio s.usedPages s.totalPages,
    fpClamp (int32 (fpFromRatio window aiPeriodTicks - fpOne)) (-(2 * fpOne)) (2 * fpOne)]

def aiAct (hz : Nat) (action : Action) : Nat :=
  match action with
  | .boost => if u32 (hz + 25) ≤ 500 then u32 (hz + 25) else hz
  | .rest => if hz ≥ 25 + 10 then hz - 25 else hz
  | .sustain => hz

def took (s : Native) (action : Action) : Native :=
  { s with
    hz := aiAct s.hz action
    lastAction := action.name
    inferences := u32 (s.inferences + 1) }

def aiStep (s : Native) : Native := s.took (aiDecide s.aiPerceive)

def timerTicks (s : Native) : Native :=
  let s := { s with ticks := (s.ticks + s.hz) % 2 ^ 64,
                    readsSinceInference := u32 (s.readsSinceInference + 1) }
  if s.readsSinceInference ≥ aiPeriodTicks then aiStep { s with readsSinceInference := 0 }
  else s

def setTimerHzClamped (s : Native) (hz : Nat) : Native :=
  let hz := if hz < 10 then 10 else hz
  let hz := if hz > 500 then 500 else hz
  { s with hz := hz }

def simAllocatePages (s : Native) (count : Nat) : Native :=
  if count ≤ s.freePages then { s with freePages := s.freePages - count } else s

def simReset (s : Native) : Native :=
  { s with
    freePages := u32 (s.totalPages + (2 ^ 32 - 4608))
    ticks := 0
    hz := 100
    inferences := 0
    readsSinceInference := 0
    lastAction := "SUSTAIN" }

def aiForceInference (s : Native) : Native :=
  if s.aiDisabledFlag then s
  else
    let x := ![fpFromRatio s.usedPages s.totalPages,
      fpFromRatio s.usedPages s.totalPages,
      2 * fpOne]
    let action := aiDecide x
    { s.took action with
      aiHistory :=
        Function.update s.aiHistory (s.aiHistCount % aiHistLen) ⟨s.ticks, action.id⟩
      aiHistCount := u32 (s.aiHistCount + 1) }

def historyCount (s : Native) : Nat :=
  if s.aiHistCount < aiHistLen then s.aiHistCount else aiHistLen

def historyStart (s : Native) : Nat :=
  if s.aiHistCount < aiHistLen then 0 else s.aiHistCount - aiHistLen

def historyTick (s : Native) (idx : Int) : Nat :=
  if idx < 0 ∨ idx ≥ s.historyCount then 0
  else (s.aiHistory (u32 (s.historyStart + idx.toNat) % aiHistLen)).tick

def historyAction (s : Native) (idx : Int) : Int :=
  if idx < 0 ∨ idx ≥ s.historyCount then -1
  else (s.aiHistory (u32 (s.historyStart + idx.toNat) % aiHistLen)).action

def aiDisable (s : Native) : Native := { s with aiDisabledFlag := true }

def aiEnable (s : Native) : Native := { s with aiDisabledFlag := false }

def memoryStats (s : Native) : MemoryStats := ⟨s.totalPages, s.freePages⟩

def timerInfo (s : Native) : TimerInfo × Native :=
  let s := s.timerTicks
  (⟨s.ticks, s.hz⟩, s)

def setTimerHz (s : Native) (hz : Int) : Except String Native :=
  if ¬ (10 ≤ hz ∧ hz ≤ 500) then .error "timer rate must be within [10, 500] Hz"
  else .ok (s.setTimerHzClamped hz.toNat)

def vitals (s : Native) : SystemVitals × Native :=
  let memory := s.memoryStats
  let (timer, s) := s.timerInfo
  let inferences := s.inferences
  let lastAction := s.lastAction
  let (again, s) := s.timerInfo
  (⟨memory, timer, inferences, lastAction, again.hz⟩, s)

def aiGetHistory (s : Native) : List HistEntry :=
  (List.range s.historyCount).map fun (i : Nat) => ⟨s.historyTick i, s.historyAction i⟩

def report (s : Native) : AiReport := ⟨s.lastAction, s.hz, s.inferences, s.aiGetHistory⟩

end Native
end Aeos.Sdk
