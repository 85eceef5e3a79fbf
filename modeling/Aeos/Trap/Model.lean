/-
# System calls, context switches and timer interrupts

The path of a user task through the kernel on AArch64: `SVC`, `SAVE_LOWER`, the C handler, which
may yield and be switched out, `RESTORE_LOWER`, `ERET`. The switch and the return path run
instruction by instruction, with a timer interrupt possible before each of them while interrupts
are unmasked.

The C code of a system call has one activation record, in which it keeps the callee-saved
registers. It may do anything to its registers, to the stack below its record, to the interrupt
mask and to slot `0` of the frame, where the result goes.
-/

import Aeos.Sched.Model
import Aeos.Trap.Stubs

namespace Aeos.Trap

open Lib Function

structure Ctx where
  x : Fin 31 → Word
  spEl0 : Word
  pc : Word
  flags : Nat

/-- PSTATE of a user task: EL0, interrupts unmasked. -/
def userPstate (flags : Nat) : Pstate := ⟨true, false, flags⟩

structure Call where
  /-- The context at the `SVC`. -/
  ctx : Ctx
  /-- `x0` as the call will return it. -/
  result : Word

structure State where
  sched : Sched.State
  core : Core
  loc : Loc
  irqMasked : Bool
  /-- The system call each slot is in. -/
  trapped : Nat → Option Call

def State.cur (s : State) : Nat := s.sched.current.getD 0

/-! ## Exceptions -/

def Ctx.enter (u : Ctx) (c : Core) : Core :=
  { c with x := u.x, spEl0 := u.spEl0, elr := u.pc, spsr := .pstate (userPstate u.flags) }

def eret (s : State) : State :=
  match s.core.spsr with
  | .pstate p =>
    if p.el0 then { s with loc := .user, irqMasked := p.irqMasked }
    else
      match s.core.elr with
      | .code loc => { s with loc := loc, irqMasked := p.irqMasked }
      | _ => { s with loc := .lost }
  | _ => { s with loc := .lost }

def ret (s : State) : State :=
  match s.core.x 30 with
  | .code loc => { s with loc := loc }
  | _ => { s with loc := .lost }

def tickKernel (s : State) (clobbered : Fin 31 → Word) (junk : Int → Word) : State :=
  let c := { s.core with elr := .code s.loc, spsr := .pstate ⟨false, s.irqMasked, 0⟩ }
  eret
    { s with core := handleIrqEntry c clobbered junk, sched := Sched.schedOnTick s.sched }

def tickUser (s : State) (u : Ctx) (clobbered : Fin 31 → Word) (junk : Int → Word) : State :=
  eret
    { s with
      core := handleIrqLower (u.enter s.core) clobbered junk
      sched := Sched.schedOnTick s.sched }

def svc (s : State) (u : Ctx) : State :=
  let c := execs saveLower (u.enter s.core)
  let c := { c with x := update c.x 30 (.code (.restoreLower 0)) }
  { s with
    core := execs prologue c
    loc := .body 0
    irqMasked := true
    trapped := update s.trapped s.cur (some ⟨u, u.x 0⟩) }

/-! ## C code -/

structure Work where
  x : Fin 31 → Word
  /-- Bytes of stack in use below the activation record. -/
  depth : Nat
  junk : Int → Word
  /-- `regs[0] = result`. -/
  result : Option Word
  irqMasked : Bool

def workBody (s : State) (depth : Nat) (w : Work) : State :=
  let record := s.core.sp.shift depth
  let mem := scribble s.core.mem record w.junk
  { s with
    core :=
      { s.core with
        x := w.x
        sp := record.shift (-w.depth)
        mem :=
          match w.result with
          | some r => update mem (record.at 96) r
          | none => mem }
    loc := .body w.depth
    irqMasked := w.irqMasked
    trapped :=
      match w.result with
      | some r =>
        update s.trapped s.cur ((s.trapped s.cur).map fun t => { t with result := r })
      | none => s.trapped }

def workThread (s : State) (w : Work) : State :=
  { s with
    core :=
      { s.core with
        x := w.x
        sp := .ptr (.stack s.cur) (-w.depth)
        mem := scribble s.core.mem (.ptr (.stack s.cur) 0) w.junk }
    irqMasked := w.irqMasked }

def workDrop (s : State) (w : Work) : State :=
  let task := s.sched.tasks s.cur
  { s with
    core :=
      { s.core with
        x := update (update (update w.x
          0 (.pstate (userPstate 0))) 1 (.num task.uentry)) 2 (.num task.usp)
        sp := s.core.sp.shift (-w.depth)
        mem := scribble s.core.mem s.core.sp w.junk }
    loc := .dropAsm 0 }

def finish (s : State) (depth : Nat) : State :=
  ret { s with core := execs epilogue { s.core with sp := s.core.sp.shift depth } }

/-! ## Calls into the scheduler -/

def spawned (s : Sched.State) : Sched.Event → Option (Nat × Word × Loc)
  | .spawn name entry stack stackLen =>
    (Sched.schedSpawn s name entry stack stackLen).1.map fun slot => (slot, .num entry, .thread)
  | .spawnUser name as uentry usp pid stack stackLen =>
    (Sched.schedSpawnUserTask s name as uentry usp pid stack stackLen).1.map fun slot =>
      (slot, .num 0, .userDrop)
  | _ => none

def freshArea (mem : Cell → Word) (slot : Nat) (x19 : Word) (lr : Loc) : Cell → Word := fun a =>
  if a.1 = .area slot then
    if a.2 = 0 then x19
    else if a.2 = 88 then .code lr
    else if a.2 = 96 then .ptr (.stack slot) 0
    else .num 0
  else mem a

def callSwitch (s : State) (sched : Sched.State) (d : Sched.Dispatch) : State :=
  { s with
    sched := sched
    core :=
      { s.core with
        x := update (update (update s.core.x
          0 (.ptr (.area d.prev) 0)) 1 (.ptr (.area d.next) 0)) 30 (.code s.loc) }
    loc := .switchTo 0
    irqMasked := false
    trapped :=
      if (sched.tasks d.prev).state = .ready then s.trapped
      else update s.trapped d.prev none }

def callQuiet (s : State) (sched : Sched.State) (e : Sched.Event) : State :=
  if (sched.tasks s.cur).state = .finished then
    { s with
      sched := sched
      loc := .idle
      irqMasked := false
      trapped := update s.trapped s.cur none }
  else
    match spawned s.sched e with
    | some (slot, x19, lr) =>
      { s with
        sched := sched
        core := { s.core with mem := freshArea s.core.mem slot x19 lr }
        trapped := update s.trapped slot none }
    | none => { s with sched := sched }

def call (s : State) (e : Sched.Event) : State :=
  let r := Sched.react s.sched e
  match r.2 with
  | some d => callSwitch s r.1 d
  | none => callQuiet s r.1 e

/-! ## Assembly -/

def asmStep (s : State) (code : List Instr) (loc : Nat → Loc) (k : Nat) (after : State → State) :
  State :=
  match code[k]? with
  | some i => { s with core := exec s.core i, loc := loc (k + 1) }
  | none => after s

def eretCall (s : State) : State :=
  { eret s with trapped := update s.trapped s.cur none }

def stepAsm (s : State) : State :=
  match s.loc with
  | .switchTo k => asmStep s cpuSwitchTo .switchTo k ret
  | .restoreLower k => asmStep s restoreLower .restoreLower k eretCall
  | .dropAsm k => asmStep s userDropAsm .dropAsm k eret
  | _ => s

/-! ## The machine -/

inductive Event
  | tick (clobbered : Fin 31 → Word) (junk : Int → Word)
  | tickUser (u : Ctx) (clobbered : Fin 31 → Word) (junk : Int → Word)
  | svc (u : Ctx)
  | work (w : Work)
  | call (e : Sched.Event)
  | finish
  | asm

def react (s : State) : Event → State
  | .tick clobbered junk => tickKernel s clobbered junk
  | .tickUser u clobbered junk => tickUser s u clobbered junk
  | .svc u => svc s u
  | .work w =>
    match s.loc with
    | .body depth => workBody s depth w
    | .thread => workThread s w
    | .userDrop => workDrop s w
    | _ => s
  | .call e => call s e
  | .finish =>
    match s.loc with
    | .body depth => finish s depth
    | _ => s
  | .asm => stepAsm s

def executing (s : Sched.State) : Bool :=
  match s.current with
  | some c => (s.tasks c).state = .running
  | none => false

def admits (s : State) : Event → Bool
  | .tick _ _ => !s.irqMasked && s.loc ≠ .user && s.loc ≠ .lost
  | .tickUser _ _ _ => s.loc = .user
  | .svc _ => s.loc = .user
  | .work _ =>
    match s.loc with
    | .body _ | .thread | .userDrop => true
    | _ => false
  | .call e =>
    match s.loc with
    | .body _ | .thread => executing s.sched && e ≠ .tick
    | _ => false
  | .finish =>
    match s.loc with
    | .body _ => true
    | _ => false
  | .asm =>
    match s.loc with
    | .switchTo _ | .restoreLower _ | .dropAsm _ => true
    | _ => false

/-- Every interleaving after `sched_init`: the boot context runs as task `0`. -/
def trapMachine : Machine State Event where
  init s := (∃ before mainName, s.sched = Sched.schedInit before mainName) ∧ s.loc = .thread ∧
    (∃ o, s.core.sp = .ptr (.stack 0) o) ∧ s.trapped = fun _ => none
  enabled s e := admits s e
  step := react

instance (s : State) (e : Event) : Decidable (trapMachine.enabled s e) :=
  inferInstanceAs (Decidable (admits s e = true))

end Aeos.Trap
