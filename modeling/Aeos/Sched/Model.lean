/-
# The task scheduler

The cooperative round-robin scheduler of `kernel/sched.c`. `current` is the slot whose context
is in the CPU, `none` before `sched_init`. A dispatch is reported as the pair of slots it
switches between.

Timer ticks land inside `sched_yield` and `sched_exit` as well as between calls. The tick counts
of `YieldTicks` say how many land in each stretch of the code where a tick still finds a
different state.
-/

import Aeos.Lib.Machine
import Aeos.Lib.Ring
import Aeos.Lib.CString

namespace Aeos.Sched

open Lib

def maxTasks : Nat := 16

def taskNameLen : Nat := 12

inductive TaskState
  | unused
  | ready
  | running
  | finished
  deriving DecidableEq

structure Task where
  state : TaskState
  name : List UInt8
  ticksUsed : UInt32
  yields : UInt32
  /-- Consecutive ticks without a yield. -/
  starvedTicks : UInt32
  /-- The watchdog's verdict. -/
  killPending : Bool
  /-- Address of the task's address space, `0` for a kernel thread. -/
  as : Nat
  /-- `-1` when the task is not a process. -/
  pid : Int
  uentry : Nat
  usp : Nat
  deriving DecidableEq

structure State where
  tasks : Nat → Task
  current : Option Nat
  uptime : UInt32
  watchdogLimit : UInt32

structure Dispatch where
  prev : Nat
  next : Nat
  deriving DecidableEq

namespace State

def setTask (s : State) (slot : Nat) (f : Task → Task) : State :=
  { s with tasks := Function.update s.tasks slot (f (s.tasks slot)) }

@[simp]
lemma setTask_current (s : State) (slot : Nat) (f : Task → Task) :
  (s.setTask slot f).current = s.current := rfl

@[simp]
lemma setTask_tasks_same (s : State) (slot : Nat) (f : Task → Task) :
  (s.setTask slot f).tasks slot = f (s.tasks slot) := by
  simp [setTask]

@[simp]
lemma setTask_tasks_of_ne (s : State) {slot other : Nat} (f : Task → Task)
  (hne : other ≠ slot) : (s.setTask slot f).tasks other = s.tasks other := by
  simp [setTask, hne]

lemma setTask_field {α : Type*} (field : Task → α) (s : State) (slot : Nat)
  (f : Task → Task) (hf : field (f (s.tasks slot)) = field (s.tasks slot)) (i : Nat) :
  field ((s.setTask slot f).tasks i) = field (s.tasks i) := by
  by_cases hi : i = slot
  · subst i
    rw [setTask_tasks_same, hf]
  · rw [setTask_tasks_of_ne _ _ hi]

end State

/-! ## Helpers -/

def nextReady (s : State) (start : Nat) : Option Nat :=
  cyclicFind maxTasks (fun idx => (s.tasks idx).state = .ready) start

def copyName (name : List UInt8) : List UInt8 :=
  (cstr name).take (taskNameLen - 1)

/-! ## Timer tick hook -/

def tickTask (watchdogLimit : UInt32) (slot : Nat) (t : Task) : Task :=
  let t := { t with ticksUsed := t.ticksUsed + 1 }
  if watchdogLimit ≠ 0 ∧ slot ≠ 0 then
    let t := { t with starvedTicks := t.starvedTicks + 1 }
    if watchdogLimit ≤ t.starvedTicks ∧ t.killPending = false then
      { t with killPending := true }
    else t
  else t

def schedOnTick (s : State) : State :=
  let s := { s with uptime := s.uptime + 1 }
  match s.current with
  | none => s
  | some c =>
    if (s.tasks c).state = .running then
      s.setTask c (tickTask s.watchdogLimit c)
    else s

def onTicks : Nat → State → State
  | 0, s => s
  | n + 1, s => onTicks n (schedOnTick s)

/-! ## Creation -/

def idleTask : Task where
  state := .unused
  name := []
  ticksUsed := 0
  yields := 0
  starvedTicks := 0
  killPending := false
  as := 0
  pid := -1
  uentry := 0
  usp := 0

def schedInit (s : State) (mainName : List UInt8) : State :=
  { s with
    tasks := fun i =>
      if i = 0 then { idleTask with state := .running, name := copyName mainName }
      else if i < maxTasks then idleTask
      else s.tasks i
    current := some 0 }

def slotAlloc (s : State) : Option Nat :=
  (List.range maxTasks).find? fun i =>
    (s.tasks i).state = .unused ∨ (s.tasks i).state = .finished

def taskSetup (name : List UInt8) (t : Task) : Task :=
  { t with
    state := .ready
    ticksUsed := 0
    yields := 0
    starvedTicks := 0
    killPending := false
    name := copyName name }

def spawnSlot (s : State) (valid : Bool) (fill : Task → Task) : Option Nat × State :=
  match slotAlloc s with
  | none => (none, s)
  | some slot => if valid then (some slot, s.setTask slot fill) else (none, s)

def spawnArgs (entry stack stackLen : Nat) : Bool :=
  entry ≠ 0 ∧ stack ≠ 0 ∧ 256 ≤ stackLen

def schedSpawn (s : State) (name : List UInt8) (entry stack stackLen : Nat) : Option Nat × State :=
  spawnSlot s (spawnArgs entry stack stackLen) fun t =>
    { taskSetup name t with as := 0, pid := -1, uentry := 0, usp := 0 }

def spawnUserArgs (uentry usp stack stackLen : Nat) : Bool :=
  uentry ≠ 0 ∧ usp ≠ 0 ∧ stack ≠ 0 ∧ 256 ≤ stackLen

def schedSpawnUserTask (s : State) (name : List UInt8) (as uentry usp : Nat) (pid : Int)
  (stack stackLen : Nat) : Option Nat × State :=
  spawnSlot s (spawnUserArgs uentry usp stack stackLen) fun t =>
    { taskSetup name t with as := as, pid := pid, uentry := uentry, usp := usp }

/-! ## Yield and exit -/

/-- Ticks that land inside one `sched_yield`. -/
structure YieldTicks where
  /-- After the watchdog verdict was read, before `starved_ticks` is cleared. -/
  verdict : Nat
  /-- After that, while the table is scanned for a READY slot. -/
  scan : Nat
  /-- Between the two state stores and the store to `current`. -/
  handoff : Nat
  deriving DecidableEq

/-- `next->state = TASK_RUNNING; current = nxt;` with the ticks that land before the second store,
which only count uptime. -/
def switchIn (s : State) (ticks next : Nat) : State :=
  { s.setTask next (fun t => { t with state := .running }) with
    current := some next
    uptime := s.uptime + UInt32.ofNat ticks }

def schedExit (s : State) (ticks : Nat) : State × Option Dispatch :=
  match s.current with
  | none => (s, none)
  | some c =>
    let s := s.setTask c fun t => { t with state := .finished }
    match nextReady s c with
    | some n => (switchIn s ticks n, some ⟨c, n⟩)
    | none => (s, none)

def schedYield (s : State) (ticks : YieldTicks) : State × Option Dispatch :=
  match s.current with
  | none => (s, none)
  | some c =>
    if (s.tasks c).killPending then
      -- Watchdog verdict: a flagged task never gets the CPU again.
      let s := s.setTask c fun t => { t with state := .finished }
      match nextReady s c with
      | some n => (switchIn s ticks.handoff n, some ⟨c, n⟩)
      | none => schedExit s ticks.handoff
    else
      let s := (onTicks ticks.verdict s).setTask c fun t => { t with starvedTicks := 0 }
      let s := onTicks ticks.scan s
      match nextReady s c with
      | none => (s, none)
      | some n =>
        let s := s.setTask c fun t =>
          { t with state := .ready, yields := t.yields + 1 }
        (switchIn s ticks.handoff n, some ⟨c, n⟩)

def schedWatchdogSet (s : State) (limit : UInt32) : State :=
  { s with watchdogLimit := limit }

def schedCurrentIndex (s : State) : Option Nat := s.current

def schedTaskSetPid (s : State) (idx : Nat) (pid : Int) : State :=
  if idx < maxTasks then s.setTask idx fun t => { t with pid := pid } else s

/-! ## The scheduler as a machine -/

/-- One call into the scheduler, or one timer tick. -/
inductive Event
  | spawn (name : List UInt8) (entry stack stackLen : Nat)
  | spawnUser (name : List UInt8) (as uentry usp : Nat) (pid : Int) (stack stackLen : Nat)
  | yield (ticks : YieldTicks)
  | exit (ticks : Nat)
  | tick
  | watchdogSet (limit : UInt32)
  deriving DecidableEq

def Executing (s : State) : Prop :=
  ∃ c, s.current = some c ∧ (s.tasks c).state = .running

instance (s : State) : Decidable (Executing s) :=
  inferInstanceAs (Decidable (∃ c ∈ s.current, (s.tasks c).state = .running))

/-- The state after an event and the dispatch it performs. -/
def react (s : State) : Event → State × Option Dispatch
  | .spawn name entry stack stackLen => ((schedSpawn s name entry stack stackLen).2, none)
  | .spawnUser name as uentry usp pid stack stackLen =>
    ((schedSpawnUserTask s name as uentry usp pid stack stackLen).2, none)
  | .yield ticks => schedYield s ticks
  | .exit ticks => schedExit s ticks
  | .tick => (schedOnTick s, none)
  | .watchdogSet limit => (schedWatchdogSet s limit, none)

/-- Ticks come at any time; everything else is called by the task that is executing. -/
def admits (s : State) : Event → Prop
  | .tick => True
  | _ => Executing s

/-- Every run of the scheduler: `sched_init` in any prior memory, then any
interleaving of calls and ticks. -/
def machine : Machine State Event where
  init s := ∃ before mainName, s = schedInit before mainName
  enabled := admits
  step s e := (react s e).1

end Aeos.Sched
