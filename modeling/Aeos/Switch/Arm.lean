/-
# The AArch64 context switch

`boot/aarch64/switch.S` over 64-bit registers and memory. The instructions of `cpu_switch_to`
are those of the exception stubs' model, here with numbers for addresses.
-/

import Aeos.Switch.Port
import Aeos.Trap.Stubs

namespace Aeos.Switch.Arm

open Lib List Function
open Trap (Instr Reg SysReg cpuSwitchTo calleeFrame)

structure Core where
  x : Fin 31 → BitVec 64
  sp : BitVec 64
  pc : BitVec 64
  spEl0 : BitVec 64
  elr : BitVec 64
  spsr : BitVec 64
  mem : Memory

def Core.get (c : Core) : Reg → BitVec 64
  | .x i => c.x i
  | .sp => c.sp

def Core.set (c : Core) (r : Reg) (w : BitVec 64) : Core :=
  match r with
  | .x i => { c with x := update c.x i w }
  | .sp => { c with sp := w }

def Core.getSys (c : Core) : SysReg → BitVec 64
  | .elr => c.elr
  | .spsr => c.spsr
  | .spEl0 => c.spEl0

def Core.setSys (c : Core) (r : SysReg) (w : BitVec 64) : Core :=
  match r with
  | .elr => { c with elr := w }
  | .spsr => { c with spsr := w }
  | .spEl0 => { c with spEl0 := w }

def Core.addr (c : Core) (base : Reg) (off : Nat) : BitVec 64 := c.get base + BitVec.ofNat 64 off

def exec (c : Core) : Instr → Core
  | .stp a b base off =>
    { c with
      mem := update (update c.mem (c.addr base off) (c.x a))
        (c.addr base (off + 8)) (c.x b) }
  | .ldp a b base off =>
    { c with
      x := update (update c.x a (c.mem (c.addr base off))) b
        (c.mem (c.addr base (off + 8))) }
  | .str a base off => { c with mem := update c.mem (c.addr base off) (c.x a) }
  | .ldr a base off => { c with x := update c.x a (c.mem (c.addr base off)) }
  | .mov dst src => c.set dst (c.get src)
  | .mrs dst src => { c with x := update c.x dst (c.getSys src) }
  | .msr dst src => c.setSys dst (c.x src)
  | .subSp n => { c with sp := c.sp - BitVec.ofNat 64 n }
  | .addSp n => { c with sp := c.sp + BitVec.ofNat 64 n }

def execs (code : List Instr) (c : Core) : Core := code.foldl exec c

def call (c : Core) (prev next : BitVec 64) : Core :=
  { c with x := update (update (update c.x 30 c.pc) 0 prev) 1 next }

def ret (c : Core) : Core := { c with pc := c.x 30 }

def switchTo (c : Core) (prev next : BitVec 64) : Core := ret (execs cpuSwitchTo (call c prev next))

def step (sym : Symbols) (c : Core) : Core :=
  if c.pc = sym.taskTrampoline then
    { c with x := update c.x 30 sym.afterCall, pc := c.x 19 }
  else if c.pc = sym.afterCall then { c with pc := sym.schedExit }
  else c

def context (c : Core) : Context where
  saved := [c.x 19, c.x 20, c.x 21, c.x 22, c.x 23, c.x 24, c.x 25, c.x 26, c.x 27, c.x 28, c.x 29]
  sp := c.sp
  pc := c.pc

structure Parked (m : Memory) (a : BitVec 64) (ctx : Context) : Prop where
  saved : ctx.saved = [m (reg a 0), m (reg a 1), m (reg a 2), m (reg a 3), m (reg a 4),
    m (reg a 5), m (reg a 6), m (reg a 7), m (reg a 8), m (reg a 9), m (reg a 10)]
  pc : ctx.pc = m (reg a 11)
  sp : ctx.sp = m (reg a 12)

variable {sym : Symbols}

lemma step_trampoline {c : Core} (hpc : c.pc = sym.taskTrampoline) :
  (step sym c).pc = c.x 19 ∧ (step sym c).x 30 = sym.afterCall ∧ (step sym c).sp = c.sp := by
  rw [step, if_pos hpc]
  exact ⟨rfl, Function.update_self 30 sym.afterCall c.x, rfl⟩

lemma step_afterCall {c : Core} (hpc : c.pc = sym.afterCall) : (step sym c).pc = sym.schedExit := by
  rw [step, if_neg fun h => sym.afterCall_ne (hpc.symm.trans h), if_pos hpc]

/-! ## What the switch does -/

def slots : List (Fin 31 × Nat) :=
  [(19, 0), (20, 1), (21, 2), (22, 3), (23, 4), (24, 5), (25, 6), (26, 7), (27, 8), (28, 9),
    (29, 10), (30, 11)]

lemma slots_lt : ∀ p ∈ slots, p.2 < 12 := by decide

lemma slots_regs : (slots.map Prod.fst).Nodup := by decide

lemma slots_cells (a : BitVec 64) : (slots.map fun p => reg a p.2).Nodup :=
  nodup_reg a (fun p hp => (slots_lt p hp).trans (by omega)) (by decide)

def savedMem (c : Core) (prev next : BitVec 64) : Memory :=
  update (spill (reg prev) (call c prev next).x slots c.mem) (reg prev 12) c.sp

lemma switchTo_eq (c : Core) (prev next : BitVec 64) : switchTo c prev next =
    ret { call c prev next with
      sp := savedMem c prev next (reg next 12)
      mem := savedMem c prev next
      x := update (fill (reg next) (savedMem c prev next) slots
        (update (call c prev next).x 2 c.sp)) 2 (savedMem c prev next (reg next 12)) } := by
  simp only [switchTo, execs, cpuSwitchTo, foldl_cons, foldl_nil, exec, Core.get, Core.set,
    Core.addr, fill, spill, slots, savedMem, reg]
  rfl

section
variable {c : Core} {prev next : BitVec 64}

@[simp]
lemma mem_switchTo : (switchTo c prev next).mem = savedMem c prev next := by
  rfl

@[simp]
lemma sp_switchTo : (switchTo c prev next).sp = savedMem c prev next (reg next 12) := by
  rfl

variable {p : Fin 31 × Nat}

lemma x_switchTo (hp : p ∈ slots) :
  (switchTo c prev next).x p.1 = savedMem c prev next (reg next p.2) := by
  have hne : ∀ p ∈ slots, p.1 ≠ 2 := by decide
  rw [switchTo_eq]
  show update (fill (reg next) _ slots _) 2 _ p.1 = _
  rw [update_of_ne (hne p hp), fill_slot slots_regs hp]

@[simp]
lemma pc_switchTo : (switchTo c prev next).pc = savedMem c prev next (reg next 11) := by
  rfl

lemma savedMem_slot (hp : p ∈ slots) :
  savedMem c prev next (reg prev p.2) = (call c prev next).x p.1 := by
  have hlt := slots_lt p hp
  have hne : reg prev p.2 ≠ reg prev 12 := by
    intro heq
    have := reg_injective prev (by omega) (by omega) heq
    omega
  rw [savedMem, update_of_ne hne]
  exact spill_slot_of_nodup (slots_cells prev) hp

lemma savedMem_outside {w : BitVec 64} (hw : ¬ IsReg prev w) :
  savedMem c prev next w = c.mem w := by
  rw [savedMem, update_of_ne fun heq => hw ⟨12, by omega, heq⟩]
  apply spill_outside
  intro p hp heq
  exact hw ⟨p.2, (slots_lt p hp).trans (by omega), heq.symm⟩

lemma parked_switchTo : Parked (switchTo c prev next).mem prev (context c) := by
  have hslot : ∀ p ∈ slots, savedMem c prev next (reg prev p.2) = (call c prev next).x p.1 :=
    fun p hp => savedMem_slot hp
  simp only [slots, forall_mem_cons] at hslot
  obtain ⟨h0, h1, h2, h3, h4, h5, h6, h7, h8, h9, h10, h11, -⟩ := hslot
  rw [mem_switchTo]
  constructor
  · simp only [h0, h1, h2, h3, h4, h5, h6, h7, h8, h9, h10]
    rfl
  · rw [h11]
    rfl
  · simp [savedMem, context]

lemma context_switchTo {ctx : Context} (hparked : Parked (switchTo c prev next).mem next ctx) :
  context (switchTo c prev next) = ctx := by
  have hslot : ∀ p ∈ slots, (switchTo c prev next).x p.1 = savedMem c prev next (reg next p.2) :=
    fun p hp => x_switchTo hp
  simp only [slots, forall_mem_cons] at hslot
  obtain ⟨h0, h1, h2, h3, h4, h5, h6, h7, h8, h9, h10, -, -⟩ := hslot
  rw [mem_switchTo] at hparked
  obtain ⟨saved, sp, pc⟩ := ctx
  simp only [context, Context.mk.injEq, sp_switchTo, pc_switchTo, h0, h1, h2, h3, h4, h5, h6, h7,
    h8, h9, h10]
  exact ⟨hparked.saved.symm, hparked.sp.symm, hparked.pc.symm⟩

lemma enters (sym : Symbols) {first top : BitVec 64}
  (hcrafted : Crafted (switchTo c prev next).mem next first sym.taskTrampoline top) :
  (step sym (switchTo c prev next)).pc = first ∧
    (step sym (switchTo c prev next)).x 30 = sym.afterCall ∧
    (step sym (switchTo c prev next)).sp = top := by
  rw [mem_switchTo] at hcrafted
  have hpc : (switchTo c prev next).pc = sym.taskTrampoline := by rw [pc_switchTo, hcrafted.lr]
  obtain ⟨hstep, hreturn, hsp⟩ := step_trampoline hpc
  refine ⟨?_, hreturn, ?_⟩
  · rw [hstep, x_switchTo (p := (19, 0)) (by decide), hcrafted.first]
  · rw [hsp, sp_switchTo, hcrafted.top]

end

lemma Parked.congr {m m' : Memory} {a : BitVec 64} {ctx : Context} (h : Parked m a ctx)
  (hmem : ∀ w, IsReg a w → m' w = m w) : Parked m' a ctx := by
  have hreg : ∀ k < 15, m' (reg a k) = m (reg a k) := fun k hk => hmem _ ⟨k, hk, rfl⟩
  constructor
  · rw [h.saved]
    simp (disch := omega) only [hreg]
  · rw [h.pc, hreg 11 (by omega)]
  · rw [h.sp, hreg 12 (by omega)]

/-- The AArch64 port. A call keeps the return address in a register. -/
def port (sym : Symbols) : Port sym where
  Core := Core
  mem := Core.mem
  setMem c m := { c with mem := m }
  context := context
  switchTo := switchTo
  step := step sym
  returnTo c := c.x 30
  frameTop c := c.sp
  Anchor _ _ := False
  Parked := Parked
  mem_setMem _ _ := rfl
  parked_congr h hmem _ := h.congr hmem
  mem_switchTo hw _ := by
    rw [mem_switchTo]
    exact savedMem_outside hw
  parked_switchTo _ := parked_switchTo
  context_switchTo := context_switchTo
  enters := enters sym
  exits hpc := step_afterCall hpc

end Aeos.Switch.Arm
