/-
# x86-64 instructions

The instructions that `boot/x86_64/switch.S` and `boot/x86_64/irqs.S` use, over 64-bit registers
and words of memory; a symbol is a word of its own. Transfers of control are functions of their
own.
-/

import Aeos.Lib.Spill

namespace Aeos.X86

open Lib Function

inductive Reg
  | rax | rcx | rdx | rbx | rsp | rbp | rsi | rdi
  | r8 | r9 | r10 | r11 | r12 | r13 | r14 | r15
  deriving DecidableEq

structure Core where
  reg : Reg → BitVec 64
  rip : BitVec 64
  rflags : BitVec 64
  cs : BitVec 64
  ss : BitVec 64
  mem : BitVec 64 → BitVec 64

def setFlag (flags : BitVec 64) (i : Nat) (b : Bool) : BitVec 64 :=
  if b then flags ||| BitVec.twoPow 64 i else flags &&& ~~~BitVec.twoPow 64 i

def zf (flags : BitVec 64) : Bool := flags.getLsbD 6

def parity (w : BitVec 64) : Bool := (List.range 8).countP w.getLsbD % 2 == 0

def resultFlags (flags w : BitVec 64) : BitVec 64 :=
  setFlag (setFlag (setFlag flags 2 (parity w)) 7 w.msb) 6 (w == 0)

def logicFlags (flags w : BitVec 64) : BitVec 64 :=
  resultFlags (setFlag (setFlag flags 0 false) 11 false) w

def addFlags (flags a b : BitVec 64) : BitVec 64 :=
  let carry := decide (2 ^ 64 ≤ a.toNat + b.toNat)
  let halfCarry := decide (16 ≤ a.toNat % 16 + b.toNat % 16)
  let overflow := (a.msb == b.msb) && ((a + b).msb != a.msb)
  resultFlags (setFlag (setFlag (setFlag flags 0 carry) 4 halfCarry) 11 overflow) (a + b)

@[simp]
lemma zf_setFlag_self (flags : BitVec 64) (b : Bool) : zf (setFlag flags 6 b) = b := by
  cases b <;> simp [zf, setFlag]

@[simp]
lemma zf_logicFlags (flags w : BitVec 64) : zf (logicFlags flags w) = (w == 0) := by
  rw [logicFlags, resultFlags, zf_setFlag_self]

/-! ## Instructions -/

inductive Instr
  | mov (src dst : Reg)
  /-- `mov src, disp(base)`. -/
  | store (src : Reg) (disp : BitVec 64) (base : Reg)
  /-- `mov disp(base), dst`. -/
  | load (disp : BitVec 64) (base dst : Reg)
  /-- `mov src, symbol(%rip)`. -/
  | storeAt (src : Reg) (addr : BitVec 64)
  /-- `mov symbol(%rip), dst`. -/
  | loadAt (addr : BitVec 64) (dst : Reg)
  /-- `movl $imm, symbol(%rip)`. -/
  | storeImm (imm addr : BitVec 64)
  /-- `lea symbol(%rip), dst`. -/
  | lea (addr : BitVec 64) (dst : Reg)
  | push (src : Reg)
  | pushImm (imm : BitVec 64)
  | pop (dst : Reg)
  | add (imm : BitVec 64) (dst : Reg)
  | test (src dst : Reg)
  | xor (src dst : Reg)
  | cld

def Core.set (c : Core) (r : Reg) (w : BitVec 64) : Core :=
  { c with reg := update c.reg r w }

def Core.write (c : Core) (addr w : BitVec 64) : Core :=
  { c with mem := update c.mem addr w }

def Core.pushWord (c : Core) (w : BitVec 64) : Core :=
  { c with
    reg := update c.reg .rsp (c.reg .rsp - 8)
    mem := update c.mem (c.reg .rsp - 8) w }

def exec (c : Core) : Instr → Core
  | .mov src dst => c.set dst (c.reg src)
  | .store src disp base => c.write (c.reg base + disp) (c.reg src)
  | .load disp base dst => c.set dst (c.mem (c.reg base + disp))
  | .storeAt src addr => c.write addr (c.reg src)
  | .loadAt addr dst => c.set dst (c.mem addr)
  | .storeImm imm addr => c.write addr imm
  | .lea addr dst => c.set dst addr
  | .push src => c.pushWord (c.reg src)
  | .pushImm imm => c.pushWord imm
  | .pop dst => (c.set .rsp (c.reg .rsp + 8)).set dst (c.mem (c.reg .rsp))
  | .add imm dst =>
    { c with
      reg := update c.reg dst (c.reg dst + imm)
      rflags := addFlags c.rflags (c.reg dst) imm }
  | .test src dst => { c with rflags := logicFlags c.rflags (c.reg src &&& c.reg dst) }
  | .xor src dst =>
    { c with
      reg := update c.reg dst (c.reg dst ^^^ c.reg src)
      rflags := logicFlags c.rflags (c.reg dst ^^^ c.reg src) }
  | .cld => { c with rflags := setFlag c.rflags 10 false }

def execs (code : List Instr) (c : Core) : Core := code.foldl exec c

def call (c : Core) (target after : BitVec 64) : Core := { c.pushWord after with rip := target }

def ret (c : Core) : Core :=
  { c with
    reg := update c.reg .rsp (c.reg .rsp + 8)
    rip := c.mem (c.reg .rsp) }

def jmp (c : Core) (target : BitVec 64) : Core := { c with rip := target }

lemma reg_ret {c : Core} {r : Reg} (hr : r ≠ .rsp) : (ret c).reg r = c.reg r :=
  Function.update_of_ne hr _ _

@[simp]
lemma rsp_ret (c : Core) : (ret c).reg .rsp = c.reg .rsp + 8 := by
  simp [ret]

end Aeos.X86
