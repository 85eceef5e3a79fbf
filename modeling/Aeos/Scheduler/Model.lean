/-
# The Rust scheduler

`Scheduler` of the `scheduler` crate: a table of tasks, one run queue per priority, and a
current task. Names, floating-point registers and the bookkeeping fields that no function reads
are left out. The counters of ticks and switches do not wrap.
-/

import Aeos.Lib.Levels
import Aeos.Lib.Machine

namespace Aeos.Tasks

open Lib

def usizeBound : Nat := 2 ^ 64

def maxTasks : Nat := 64

def defaultTimeSlice : Nat := 10

def idlePriority : Nat := 0

def maxPriority : Nat := 8

inductive SchedulerError
  | taskTableFull
  | invalidTaskId
  | invalidTaskState
  | invalidPriority
  | notInitialized
  deriving DecidableEq

/-! ## Tasks -/

inductive TaskState
  | ready
  | running
  | blocked
  | suspended
  | zombie
  deriving DecidableEq

structure TaskContext where
  sp : Nat
  pc : Nat
  regs : Nat → Nat

def TaskContext.new (entry stackTop : Nat) : TaskContext where
  sp := stackTop
  pc := entry
  regs := Function.update (Function.update (fun _ => 0) 13 stackTop) 14 entry

structure Task where
  id : Nat
  state : TaskState
  priority : Nat
  context : TaskContext
  timeSlice : Nat
  stackBase : Nat
  stackSize : Nat
  exitCode : Int

def Task.new (id entry priority stackSize : Nat) : Task :=
  let stackBase := (0x40000000 + id * stackSize) % usizeBound
  let stackTop := (stackBase + stackSize) % usizeBound
  { id := id
    state := .ready
    priority := priority
    context := TaskContext.new entry stackTop
    timeSlice := 10
    stackBase := stackBase
    stackSize := stackSize
    exitCode := 0 }

def Task.newIdle (id : Nat) : Task where
  id := id
  state := .ready
  priority := 0
  context := TaskContext.new 0 0
  timeSlice := usizeBound - 1
  stackBase := 0
  stackSize := 0
  exitCode := 0

/-! ## Queues and policy -/

/-- `PriorityQueue`: a run queue of task ids per priority, in FIFO order. -/
structure PriorityQueue where
  queues : Levels Nat

namespace PriorityQueue

def new : PriorityQueue := ⟨fun _ => []⟩

def enqueue (q : PriorityQueue) (id priority : Nat) : PriorityQueue :=
  ⟨Levels.push q.queues (min priority (maxPriority - 1)) id⟩

def peek (q : PriorityQueue) : Option Nat := Levels.front q.queues maxPriority

def dequeue (q : PriorityQueue) : Option Nat × PriorityQueue :=
  match Levels.pop q.queues maxPriority with
  | some (id, queues) => (some id, ⟨queues⟩)
  | none => (none, q)

def removes (q : PriorityQueue) (id priority : Nat) : Bool :=
  (q.queues (min priority (maxPriority - 1))).contains id

def totalTasks (q : PriorityQueue) : Nat :=
  ((List.range maxPriority).map fun p => (q.queues p).length).sum

def remove (q : PriorityQueue) (id priority : Nat) : PriorityQueue :=
  ⟨Levels.erase q.queues (min priority (maxPriority - 1)) id⟩

end PriorityQueue

structure PriorityRoundRobin where
  baseSlice : Nat

def PriorityRoundRobin.new : PriorityRoundRobin := ⟨defaultTimeSlice⟩

def PriorityRoundRobin.timeSlice (policy : PriorityRoundRobin) (priority : Nat) : Nat :=
  policy.baseSlice + priority * 2

/-! ## Scheduler -/

structure Scheduler where
  tasks : Nat → Option Task
  queues : PriorityQueue
  current : Option Nat
  policy : PriorityRoundRobin
  contextSwitches : Nat
  ticks : Nat
  initialized : Bool

namespace Scheduler

def new : Scheduler where
  tasks := fun _ => none
  queues := PriorityQueue.new
  current := none
  policy := PriorityRoundRobin.new
  contextSwitches := 0
  ticks := 0
  initialized := false

def setTask (s : Scheduler) (id : Nat) (task : Task) : Scheduler :=
  { s with tasks := Function.update s.tasks id (some task) }

def getTask (s : Scheduler) (id : Nat) : Except SchedulerError Task :=
  if id < maxTasks then
    match s.tasks id with
    | some task => .ok task
    | none => .error .invalidTaskId
  else .error .invalidTaskId

def findFreeSlot (s : Scheduler) : Option Nat :=
  (List.range maxTasks).find? fun i => (s.tasks i).isNone

def init (s : Scheduler) : Except SchedulerError Unit × Scheduler :=
  if s.initialized then (.ok (), s)
  else
    let s := s.setTask 0 (Task.newIdle 0)
    (.ok (), { s with queues := s.queues.enqueue 0 idlePriority, initialized := true })

def createTask (s : Scheduler) (entry priority stackSize : Nat) :
  Except SchedulerError Nat × Scheduler :=
  if !s.initialized then (.error .notInitialized, s)
  else if maxPriority ≤ priority then (.error .invalidPriority, s)
  else
    match s.findFreeSlot with
    | none => (.error .taskTableFull, s)
    | some id =>
      let s := s.setTask id (Task.new id entry priority stackSize)
      (.ok id, { s with queues := s.queues.enqueue id priority })

def exitTask (s : Scheduler) (id : Nat) (exitCode : Int) : Except SchedulerError Unit × Scheduler :=
  match s.getTask id with
  | .error e => (.error e, s)
  | .ok task =>
    let s := s.setTask id { task with state := .zombie, exitCode := exitCode }
    (.ok (), { s with queues := s.queues.remove id task.priority })

def blockTask (s : Scheduler) (id : Nat) : Except SchedulerError Unit × Scheduler :=
  match s.getTask id with
  | .error e => (.error e, s)
  | .ok task =>
    if task.state ≠ .running ∧ task.state ≠ .ready then (.error .invalidTaskState, s)
    else
      let s := s.setTask id { task with state := .blocked }
      (.ok (), { s with queues := s.queues.remove id task.priority })

def unblockTask (s : Scheduler) (id : Nat) : Except SchedulerError Unit × Scheduler :=
  match s.getTask id with
  | .error e => (.error e, s)
  | .ok task =>
    if task.state ≠ .blocked then (.error .invalidTaskState, s)
    else
      let s := s.setTask id { task with state := .ready }
      (.ok (), { s with queues := s.queues.enqueue id task.priority })

def leave (s : Scheduler) (current : Nat) : Scheduler :=
  let s := { s with contextSwitches := s.contextSwitches + 1 }
  match s.tasks current with
  | none => s
  | some task =>
    let task := { task with timeSlice := s.policy.timeSlice task.priority }
    if task.state = .running then
      { s.setTask current { task with state := .ready } with
        queues := s.queues.enqueue current task.priority }
    else s.setTask current task

def enter (s : Scheduler) (next : Nat) : Scheduler :=
  let s := { s with current := some next }
  match s.tasks next with
  | none => s
  | some task =>
    s.setTask next
      { task with state := .running, timeSlice := s.policy.timeSlice task.priority }

def schedule (s : Scheduler) : Option Nat × Scheduler :=
  match s.queues.peek with
  | none => (none, s)
  | some next =>
    match s.current with
    | none => (some next, s.enter next)
    | some current =>
      if current = next then (some current, s) else (some next, (s.leave current).enter next)

def tick (s : Scheduler) : Option Nat × Scheduler :=
  if !s.initialized then (none, s)
  else
    let s := { s with ticks := s.ticks + 1 }
    match s.current with
    | none => s.schedule
    | some current =>
      match s.tasks current with
      | none => (none, s)
      | some task =>
        let task := { task with timeSlice := task.timeSlice - 1 }
        let s := s.setTask current task
        if task.timeSlice = 0 then s.schedule else (none, s)

end Scheduler

/-! ## The machine -/

inductive Event
  | init
  | createTask (entry priority stackSize : Nat)
  | exitTask (id : Nat) (exitCode : Int)
  | blockTask (id : Nat)
  | unblockTask (id : Nat)
  | tick
  | schedule
  deriving DecidableEq

def react (s : Scheduler) : Event → Scheduler
  | .init => s.init.2
  | .createTask entry priority stackSize => (s.createTask entry priority stackSize).2
  | .exitTask id exitCode => (s.exitTask id exitCode).2
  | .blockTask id => (s.blockTask id).2
  | .unblockTask id => (s.unblockTask id).2
  | .tick => s.tick.2
  | .schedule => s.schedule.2

/-- Any calls in any order, from a new scheduler. -/
def machine : Machine Scheduler Event where
  init s := s = Scheduler.new
  enabled _ _ := True
  step := react

end Aeos.Tasks
