/-
# System calls

`syscall_dispatch` of `kernel/syscall.c` on a saved register frame. Every byte the kernel reads
or writes through a register is recorded. A call may leave the CPU, once in `SYS_YIELD` and any
number of times in `SYS_WAITPID`, and what the rest of the machine does until it is back is
arbitrary.
-/

import Aeos.Device.Model
import Aeos.Ipc.Model
import Aeos.Proc.Model
import Aeos.Ramfs.Model

namespace Aeos.Syscall

open Devices Ipc Lib Mem Proc Ramfs Sched

/-- The register frame `uint64_t *regs` of the exception stub, `regs[i]` holding `xi`. -/
abbrev Regs := Nat → BitVec 64

/-- The numbers of `syscall.h` that `syscall_dispatch` has a case for. -/
inductive Call
  | sysPrint
  | sysTicks
  | sysYield
  | sysExit
  | sysRead
  | sysWrite
  | sysOpen
  | sysClose
  | sysIoctl
  | sysCreate
  | sysDelete
  | sysAiReport
  | sysIpcCreate
  | sysIpcSend
  | sysIpcRecv
  | sysIpcDestroy
  | sysGetpid
  | sysWaitpid
  deriving DecidableEq

/-- The case a number selects; `none` is the default one. -/
def callOf (num : BitVec 64) : Option Call :=
  match num.toNat with
  | 1 => some .sysPrint
  | 2 => some .sysTicks
  | 3 => some .sysYield
  | 4 => some .sysExit
  | 5 => some .sysRead
  | 6 => some .sysWrite
  | 7 => some .sysOpen
  | 8 => some .sysClose
  | 9 => some .sysIoctl
  | 10 => some .sysCreate
  | 11 => some .sysDelete
  | 15 => some .sysAiReport
  | 16 => some .sysIpcCreate
  | 17 => some .sysIpcSend
  | 18 => some .sysIpcRecv
  | 19 => some .sysIpcDestroy
  | 20 => some .sysGetpid
  | 21 => some .sysWaitpid
  | _ => none

structure System where
  proc : Kernel
  devices : Table
  ramfs : Directory
  queues : Nat → Queue

/-- A yield inside a call: the ticks that land in it, and what others do before the caller has the
CPU again. -/
structure Round where
  ticks : YieldTicks
  resume : System → System
  memory : (BitVec 64 → UInt8) → BitVec 64 → UInt8

/-- What a call takes from the rest of the machine. -/
structure Env where
  /-- `timer_get_ticks()`. -/
  timerTicks : BitVec 64
  /-- Ticks that land in `sched_exit`. -/
  exitTicks : Nat
  /-- The yields the caller comes back from, in order. -/
  rounds : List Round

inductive Result
  /-- Back to the caller with this frame. -/
  | returned (regs : Regs)
  /-- The caller does not have the CPU. -/
  | away

def asInt (x : BitVec 64) : Int := (x.setWidth 32).toInt

def asU32 (x : BitVec 64) : BitVec 32 := x.setWidth 32

def isUserPtr (p : BitVec 64) (len : BitVec 32) : Bool :=
  let addr := p.toNat
  let stop := (p + len.setWidth 64).toNat
  if addr = 0 then false
  else if stop < addr then false
  else if ramStart ≤ addr ∧ stop ≤ ramEnd then true
  else if userVaBase ≤ addr ∧ stop ≤ userVaStack then true
  else false

def isUserPtrSimple (p : BitVec 64) : Bool := isUserPtr p 1

def reply (s : System) (regs : Regs) (r : Int) : System × Result :=
  (s, .returned (Function.update regs 0 (BitVec.ofInt 64 r)))

/-! ## The cases -/

def dispatchPrint (s : System) (regs : Regs) : Access 64 UInt8 (System × Result) :=
  let p := (regs 0).toNat
  if 0x40000000 ≤ p ∨ (userVaBase ≤ p ∧ p < userVaStack) then do
    let n ← Access.scan (regs 0) (fun _ b => decide (b ≠ 0)) 256
    pure (reply s regs n)
  else pure (reply s regs (-1))

def dispatchYield (env : Env) (s : System) (regs : Regs) : Access 64 UInt8 (System × Result) :=
  match env.rounds with
  | [] => pure (s, .away)
  | r :: _ => do
      Access.meanwhile r.memory
      let yielded := s.proc.dispatch (schedYield s.proc.sched r.ticks)
      pure (r.resume { s with proc := yielded }, .returned regs)

def dispatchExit (env : Env) (s : System) (regs : Regs) : System × Result :=
  ({ s with proc := procExit s.proc (asInt (regs 0)) env.exitTicks }, .away)

def procWaitLoop (pid : Int) : List Round → System → Access 64 UInt8 (System × WaitResult)
  | [], s => pure (s, .again)
  | r :: rest, s =>
    let looked := procWait s.proc pid r.ticks
    let s := { s with proc := looked.2 }
    match looked.1 with
    | .again => do
        Access.meanwhile r.memory
        procWaitLoop pid rest (r.resume s)
    | .missing => pure (s, .missing)
    | .reaped pid code => pure (s, .reaped pid code)

def dispatchWaitpid (env : Env) (s : System) (regs : Regs) :
  Access 64 UInt8 (System × Result) := do
  let waited ← procWaitLoop (asInt (regs 0)) env.rounds s
  match waited.2 with
  | .again => pure (waited.1, .away)
  | .missing => pure (reply waited.1 regs (-1))
  | .reaped pid code =>
    if 0 ≤ pid ∧ regs 1 ≠ 0 then
      if isUserPtr (regs 1) 4 then do
        Access.storeWord (regs 1) (BitVec.ofInt 32 code).toNat
        pure (reply waited.1 regs pid)
      else pure (reply waited.1 regs (-1))
    else pure (reply waited.1 regs pid)

def dispatchOpen (s : System) (regs : Regs) : Access 64 UInt8 (System × Result) :=
  if isUserPtrSimple (regs 0) then do
    let opened ← deviceOpen s.devices (regs 0)
    let s := { s with devices := opened.2 }
    if opened.1 = 0 then pure (reply s regs (-1))
    else
      let allocated := procFdAlloc s.proc opened.1
      pure (reply { s with proc := allocated.2 } regs (match allocated.1 with
        | some fd => fd
        | none => -1))
  else pure (reply s regs (-1))

def dispatchClose (s : System) (regs : Regs) : System × Result :=
  reply { s with proc := procFdClose s.proc (asInt (regs 0)) } regs 0

def dispatchTransfer (op : Table → Nat → BitVec 64 → BitVec 32 → Access 64 UInt8 Int)
  (s : System) (regs : Regs) : Access 64 UInt8 (System × Result) :=
  if isUserPtr (regs 1) (asU32 (regs 2)) then
    let dev := procFdGet s.proc (asInt (regs 0))
    if dev = 0 then pure (reply s regs (-1))
    else do
      let r ← op s.devices dev (regs 1) (asU32 (regs 2))
      pure (reply s regs r)
  else pure (reply s regs (-1))

def dispatchIoctl (s : System) (regs : Regs) : Access 64 UInt8 (System × Result) :=
  let dev := procFdGet s.proc (asInt (regs 0))
  if dev = 0 then pure (reply s regs (-1))
  else do
    let r ← deviceIoctl s.devices dev (asU32 (regs 1)) (asU32 (regs 2))
    pure (reply s regs r)

def dispatchDirectory (op : Directory → BitVec 64 → Access 64 UInt8 (Int × Directory))
  (s : System) (regs : Regs) : Access 64 UInt8 (System × Result) :=
  if isUserPtrSimple (regs 0) then do
    let r ← op s.ramfs (regs 0)
    pure (reply { s with ramfs := r.2 } regs r.1)
  else pure (reply s regs (-1))

def dispatchIpcCreate (s : System) (regs : Regs) : System × Result :=
  let r := ipcCreate s.queues (asU32 (regs 0)).toNat
  reply { s with queues := r.2 } regs r.1

def dispatchIpcSend (s : System) (regs : Regs) : Access 64 UInt8 (System × Result) :=
  if 0 < (asU32 (regs 2)).toNat ∧ isUserPtr (regs 1) (asU32 (regs 2)) = false then
    pure (reply s regs (-1))
  else do
    let r ← ipcSend s.queues (asInt (regs 0)) (regs 1) (asU32 (regs 2)).toNat
      (asU32 (regs 3)).toNat
    pure (reply { s with queues := r.2 } regs r.1)

def dispatchIpcRecv (s : System) (regs : Regs) : Access 64 UInt8 (System × Result) :=
  if isUserPtr (regs 1) (BitVec.ofNat 32 ipcMsgSize) = false then pure (reply s regs (-1))
  else if regs 2 ≠ 0 ∧ isUserPtr (regs 2) 4 = false then pure (reply s regs (-1))
  else if regs 3 ≠ 0 ∧ isUserPtr (regs 3) 4 = false then pure (reply s regs (-1))
  else do
    let r ← ipcRecv s.queues (asInt (regs 0)) (regs 1) (regs 2) (regs 3)
    pure (reply { s with queues := r.2 } regs r.1)

def dispatchIpcDestroy (s : System) (regs : Regs) : System × Result :=
  let r := ipcDestroy s.queues (asInt (regs 0))
  reply { s with queues := r.2 } regs r.1

def syscallDispatch (env : Env) (s : System) (regs : Regs) : Access 64 UInt8 (System × Result) :=
  match callOf (regs 8) with
  | some .sysPrint => dispatchPrint s regs
  | some .sysTicks => pure (s, .returned (Function.update regs 0 env.timerTicks))
  | some .sysYield => dispatchYield env s regs
  | some .sysExit => pure (dispatchExit env s regs)
  | some .sysRead => dispatchTransfer deviceRead s regs
  | some .sysWrite => dispatchTransfer deviceWrite s regs
  | some .sysOpen => dispatchOpen s regs
  | some .sysClose => pure (dispatchClose s regs)
  | some .sysIoctl => dispatchIoctl s regs
  | some .sysCreate => dispatchDirectory ramfsCreate s regs
  | some .sysDelete => dispatchDirectory ramfsDelete s regs
  | some .sysAiReport => pure (reply s regs 0)
  | some .sysIpcCreate => pure (dispatchIpcCreate s regs)
  | some .sysIpcSend => dispatchIpcSend s regs
  | some .sysIpcRecv => dispatchIpcRecv s regs
  | some .sysIpcDestroy => pure (dispatchIpcDestroy s regs)
  | some .sysGetpid => pure (reply s regs (procGetpid s.proc))
  | some .sysWaitpid => dispatchWaitpid env s regs
  | none => pure (reply s regs (-1))

end Aeos.Syscall
