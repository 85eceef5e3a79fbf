/-
# Processes

The process table of `kernel/proc.c`. A process control block names its task by slot index and
its address space by address; both tables are reused independently of each other. Console output
is not modelled, and of the image only its bounds matter here.
-/

import Aeos.Mem.Vmm
import Aeos.Sched.Model

namespace Aeos.Proc

open Lib Mem Sched Function

def maxProcs : Nat := 8

def procNameLen : Nat := 12

def procFdMax : Nat := 8

def procKstackSize : Nat := 1024

inductive ProcState
  | none
  | alive
  | zombie
  deriving DecidableEq

structure Pcb where
  state : ProcState
  pid : Int
  parent : Int
  /-- Slot of the task; `none` is `-1`. -/
  taskIdx : Option Nat
  as : Nat
  name : List UInt8
  exitCode : Int
  /-- Device pointers, `0` for a free descriptor. -/
  fdTable : Nat → Nat

/-- Linker addresses: the kernel's tables, the kernel stacks of processes and the user stacks of
legacy tasks. -/
structure Statics extends KernelTables where
  kstacks : Nat
  legacyStacks : Nat
  kstacks_pos : 0 < kstacks

/-- The static variables of `proc.c` and `syscall.c` with the state of the
scheduler and the memory manager. -/
structure Kernel where
  sched : Sched.State
  mm : Mm Pmm
  procs : Nat → Pcb
  nextPid : Int
  kernelFdTable : Nat → Nat
  legacyStackCount : Nat

def Kernel.setProc (k : Kernel) (i : Nat) (f : Pcb → Pcb) : Kernel :=
  { k with procs := update k.procs i (f (k.procs i)) }

/-! ## Lookup -/

def findPid (k : Kernel) (pid : Int) : Option Nat :=
  (List.range maxProcs).find? fun i =>
    ((k.procs i).state = .alive ∨ (k.procs i).state = .zombie) ∧ (k.procs i).pid = pid

def findByTask (k : Kernel) (taskIdx : Option Nat) : Option Nat :=
  (List.range maxProcs).find? fun i =>
    (k.procs i).state ≠ .none ∧ (k.procs i).taskIdx = taskIdx

def findCurrentProc (k : Kernel) : Option Nat := findByTask k (schedCurrentIndex k.sched)

def procGetpid (k : Kernel) : Int :=
  match findByTask k (schedCurrentIndex k.sched) with
  | some i => (k.procs i).pid
  | none => 0

/-! ## Dispatch -/

def switchAddressSpace (mm : Mm Pmm) (prev next : Task) : Mm Pmm :=
  if prev.as ≠ next.as then asSwitch mm next.as else mm

def Kernel.dispatch (k : Kernel) (result : Sched.State × Option Dispatch) : Kernel :=
  { k with
    sched := result.1
    mm := match result.2 with
      | none => k.mm
      | some d => switchAddressSpace k.mm (result.1.tasks d.prev) (result.1.tasks d.next) }

/-! ## Creation -/

def regionOf (chunk : Nat) : Nat := (chunk + 0x1FFFFF) % wordSize &&& bitsFrom 21 64

def releaseSpace (mm : Mm Pmm) (as chunk : Nat) : Mm Pmm :=
  asDestroy { mm with pmm := pmmFreePages mm.pmm chunk 1024 } as

def fillSpace (mm : Mm Pmm) (as : Nat) : Option Nat × Mm Pmm :=
  let chunk := pmmAllocPages mm.pmm 1024
  let mm := { mm with pmm := chunk.2 }
  if chunk.1 = 0 then (none, asDestroy mm as)
  else
    let mapped := asMapBlock mm as userVaBase (regionOf chunk.1) userBlockRwx
    if mapped.1 ≠ 0 then (none, releaseSpace mapped.2 as chunk.1)
    else (some chunk.1, mapped.2)

def buildSpace (tables : KernelTables) (mm : Mm Pmm) : Option (Nat × Nat) × Mm Pmm :=
  let created := asCreate tables mm
  if created.1 = 0 then (none, created.2)
  else
    let filled := fillSpace created.2 created.1
    (filled.1.map fun chunk => (created.1, chunk), filled.2)

def freeProc (k : Kernel) : Option Nat :=
  (List.range maxProcs).find? fun i => (k.procs i).state = .none

def imageArgs (image size entryOff : Nat) : Bool :=
  image ≠ 0 ∧ size ≠ 0 ∧ entryOff < size ∧ size ≤ 0x100000

def userSp : Nat := (userVaStack - 16) &&& bitsFrom 4 64

def Kernel.withProcess (k : Kernel) (sched : Sched.State) (mm : Mm Pmm) (name : List UInt8)
  (slot tidx as : Nat) : Kernel :=
  { k with
    sched := sched
    mm := mm
    nextPid := k.nextPid + 1
    procs := update k.procs slot
      { state := .alive
        pid := k.nextPid
        parent := 0
        taskIdx := some tidx
        as := as
        name := (cstr name).take (procNameLen - 1)
        exitCode := 0
        fdTable := fun _ => 0 } }

/-- `proc_spawn_image`; the name may be `NULL`. -/
def procSpawnImage (c : Statics) (k : Kernel) (name : Option (List UInt8))
  (image size entryOff : Nat) : Int × Kernel :=
  match name with
  | none => (-1, k)
  | some name =>
    if !imageArgs image size entryOff then (-1, k)
    else
      match freeProc k with
      | none => (-1, k)
      | some slot =>
        match buildSpace c.toKernelTables k.mm with
        | (none, mm) => (-1, { k with mm := mm })
        | (some (as, chunk), mm) =>
          match schedSpawnUserTask k.sched name as (userVaBase + entryOff) userSp k.nextPid
              (c.kstacks + slot * procKstackSize) procKstackSize with
          | (none, sched) =>
            (-1, { k with sched := sched, mm := releaseSpace mm as chunk })
          | (some tidx, sched) => (k.nextPid, k.withProcess sched mm name slot tidx as)

def schedSpawnUser (c : Statics) (k : Kernel) (name : List UInt8)
  (entry kstack kstackLen : Nat) : Option Nat × Kernel :=
  if 2 ≤ k.legacyStackCount then (none, k)
  else
    let usp := (c.legacyStacks + k.legacyStackCount * 1024 + 1024) &&& bitsFrom 4 64
    let spawned := schedSpawnUserTask k.sched name 0 entry usp (-1) kstack kstackLen
    (spawned.1, { k with sched := spawned.2, legacyStackCount := k.legacyStackCount + 1 })

/-! ## Exit and wait -/

def procExit (k : Kernel) (code : Int) (ticks : Nat) : Kernel :=
  match findByTask k (schedCurrentIndex k.sched) with
  | none => k.dispatch (schedExit k.sched ticks)
  | some i =>
    (k.setProc i fun p => { p with exitCode := code, state := .zombie }).dispatch
      (schedExit k.sched ticks)

inductive WaitResult
  /-- It yielded and will look again. -/
  | again
  /-- No such process: `-1`. -/
  | missing
  /-- The process was reaped; its pid and exit code. -/
  | reaped (pid code : Int)
  deriving DecidableEq

def reap (k : Kernel) (i : Nat) : Kernel :=
  { k.setProc i fun p => { p with as := 0, state := .none, taskIdx := none } with
    mm := asDestroy k.mm (k.procs i).as
    sched := match (k.procs i).taskIdx with
      | none => k.sched
      | some task => schedTaskSetPid k.sched task (-1) }

def procWait (k : Kernel) (pid : Int) (ticks : YieldTicks) : WaitResult × Kernel :=
  match findPid k pid with
  | none => (.missing, k)
  | some i =>
    if (k.procs i).state = .zombie then (.reaped pid (k.procs i).exitCode, reap k i)
    else (.again, k.dispatch (schedYield k.sched ticks))

/-! ## File descriptors -/

def currentFds (k : Kernel) : Nat → Nat :=
  match findCurrentProc k with
  | some i => (k.procs i).fdTable
  | none => k.kernelFdTable

def setCurrentFds (k : Kernel) (fds : Nat → Nat) : Kernel :=
  match findCurrentProc k with
  | some i => k.setProc i fun p => { p with fdTable := fds }
  | none => { k with kernelFdTable := fds }

def procFdAlloc (k : Kernel) (dev : Nat) : Option Nat × Kernel :=
  match (List.range procFdMax).find? fun i => currentFds k i = 0 with
  | some fd => (some fd, setCurrentFds k (update (currentFds k) fd dev))
  | none => (none, k)

def procFdGet (k : Kernel) (fd : Int) : Nat :=
  if fd < 0 ∨ (procFdMax : Int) ≤ fd then 0 else currentFds k fd.toNat

def procFdClose (k : Kernel) (fd : Int) : Kernel :=
  if 0 ≤ fd ∧ fd < (procFdMax : Int) then
    setCurrentFds k (update (currentFds k) fd.toNat 0)
  else k

end Aeos.Proc
