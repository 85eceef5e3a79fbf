/-
# The x86-64 context switch

`cpu_switch_to` and `task_trampoline` of `boot/x86_64/switch.S`. The return address of a call
lies on the caller's stack, so the slot that the other port uses for the link register holds
`.resume`, where a `ret` takes the task back to its caller.
-/

import Aeos.Switch.Arm
import Aeos.X86.Machine

namespace Aeos.Switch.X86

open Lib Sched List Function
open Aeos.X86 hiding call

def cpuSwitchTo (sym : Symbols) : List Instr :=
  [.store .rbx 0 .rdi, .store .r12 8 .rdi, .store .r13 16 .rdi, .store .r14 24 .rdi,
    .store .r15 32 .rdi, .store .rbp 40 .rdi, .store .rsp 96 .rdi, .lea sym.resume .rax,
    .store .rax 88 .rdi,
    .load 0 .rsi .rbx, .load 8 .rsi .r12, .load 16 .rsi .r13, .load 24 .rsi .r14,
    .load 32 .rsi .r15, .load 40 .rsi .rbp, .load 96 .rsi .rsp, .load 88 .rsi .rax]

def call (c : Core) (prev next : BitVec 64) : Core :=
  ((c.pushWord c.rip).set .rdi prev).set .rsi next

def leave (sym : Symbols) (c : Core) : Core :=
  if c.reg .rax = sym.resume then ret (jmp c sym.resume) else jmp c (c.reg .rax)

def switchTo (sym : Symbols) (c : Core) (prev next : BitVec 64) : Core :=
  leave sym (execs (cpuSwitchTo sym) (call c prev next))

def step (sym : Symbols) (c : Core) : Core :=
  if c.rip = sym.taskTrampoline then Aeos.X86.call c (c.reg .rbx) sym.afterCall
  else if c.rip = sym.afterCall then jmp c sym.schedExit
  else c

def context (c : Core) : Context where
  saved := [c.reg .rbx, c.reg .r12, c.reg .r13, c.reg .r14, c.reg .r15, c.reg .rbp]
  sp := c.reg .rsp
  pc := c.rip

lemma pc_context (c : Core) : (context c).pc = c.rip := rfl

structure Parked (sym : Symbols) (m : Memory) (a : BitVec 64) (ctx : Context) : Prop where
  saved : ctx.saved = [m (reg a 0), m (reg a 1), m (reg a 2), m (reg a 3), m (reg a 4),
    m (reg a 5)]
  resume : m (reg a 11) = sym.resume
  sp : m (reg a 12) = ctx.sp - 8
  pc : m (ctx.sp - 8) = ctx.pc

variable {sym : Symbols}

lemma Parked.congr {m m' : Memory} {a : BitVec 64} {ctx : Context}
  (h : Parked sym m a ctx) (hmem : ∀ w, IsReg a w → m' w = m w)
  (hanchor : m' (ctx.sp - 8) = m (ctx.sp - 8)) : Parked sym m' a ctx := by
  have hreg : ∀ k < 15, m' (reg a k) = m (reg a k) := fun k hk => hmem _ ⟨k, hk, rfl⟩
  constructor
  · rw [h.saved]
    simp (disch := omega) only [hreg]
  · rw [hreg 11 (by omega), h.resume]
  · rw [hreg 12 (by omega), h.sp]
  · rw [hanchor, h.pc]

lemma step_trampoline {c : Core} (hpc : c.rip = sym.taskTrampoline) :
  (step sym c).rip = c.reg .rbx ∧ (step sym c).mem ((step sym c).reg .rsp) = sym.afterCall ∧
    (step sym c).reg .rsp = c.reg .rsp - 8 := by
  rw [step, if_pos hpc]
  refine ⟨rfl, ?_, ?_⟩
  · simp [Aeos.X86.call, Core.pushWord]
  · simp [Aeos.X86.call, Core.pushWord]

lemma step_afterCall {c : Core} (hpc : c.rip = sym.afterCall) :
  (step sym c).rip = sym.schedExit := by
  rw [step, if_neg fun h => sym.afterCall_ne (hpc.symm.trans h), if_pos hpc]
  rfl

/-! ## What the switch does -/

def slots : List (Reg × Nat) :=
  [(.rbx, 0), (.r12, 1), (.r13, 2), (.r14, 3), (.r15, 4), (.rbp, 5)]

lemma slots_lt : ∀ p ∈ slots, p.2 < 6 := by decide

lemma slots_regs : (slots.map Prod.fst).Nodup := by decide

lemma slots_cells (a : BitVec 64) : (slots.map fun p => reg a p.2).Nodup :=
  nodup_reg a (fun p hp => (slots_lt p hp).trans (by omega)) (by decide)

def savedMem (sym : Symbols) (c : Core) (prev next : BitVec 64) : Memory :=
  update (update (spill (reg prev) (call c prev next).reg slots
    (call c prev next).mem) (reg prev 12) (c.reg .rsp - 8)) (reg prev 11) sym.resume

def loadedRegs (sym : Symbols) (c : Core) (prev next : BitVec 64) : Reg → BitVec 64 :=
  update (update (fill (reg next) (savedMem sym c prev next) slots
    (update (call c prev next).reg .rax sym.resume)) .rsp
    (savedMem sym c prev next (reg next 12))) .rax (savedMem sym c prev next (reg next 11))

def loaded (sym : Symbols) (c : Core) (prev next : BitVec 64) : Core :=
  { call c prev next with
    mem := savedMem sym c prev next
    reg := loadedRegs sym c prev next }

lemma switchTo_eq (sym : Symbols) (c : Core) (prev next : BitVec 64) :
  switchTo sym c prev next = leave sym (loaded sym c prev next) := by
  simp only [switchTo, execs, cpuSwitchTo, foldl_cons, foldl_nil, exec, Core.set,
    Core.write, fill, spill, slots, savedMem, loadedRegs, loaded, reg]
  rfl

section
variable {sym : Symbols} {c : Core} {prev next : BitVec 64}

@[simp]
lemma mem_leave (c : Core) : (leave sym c).mem = c.mem := by
  rw [leave]
  split <;> rfl

lemma reg_leave {c : Core} {r : Reg} (hr : r ≠ .rsp) : (leave sym c).reg r = c.reg r := by
  rw [leave]
  split
  · exact reg_ret hr
  · rfl

lemma leave_resume {c : Core} (hrax : c.reg .rax = sym.resume) :
  (leave sym c).reg .rsp = c.reg .rsp + 8 ∧ (leave sym c).rip = c.mem (c.reg .rsp) := by
  rw [leave, if_pos hrax]
  exact ⟨rsp_ret _, rfl⟩

lemma leave_jump {c : Core} (hrax : c.reg .rax ≠ sym.resume) :
  (leave sym c).reg .rsp = c.reg .rsp ∧ (leave sym c).rip = c.reg .rax := by
  rw [leave, if_neg hrax]
  exact ⟨rfl, rfl⟩

@[simp]
lemma mem_switchTo : (switchTo sym c prev next).mem = savedMem sym c prev next := by
  rw [switchTo_eq, mem_leave, loaded]

@[simp]
lemma loadedRegs_rax :
  loadedRegs sym c prev next .rax = savedMem sym c prev next (reg next 11) := by
  simp [loadedRegs]

@[simp]
lemma loadedRegs_rsp :
  loadedRegs sym c prev next .rsp = savedMem sym c prev next (reg next 12) := by
  simp [loadedRegs]

variable {p : Reg × Nat}

lemma loadedRegs_slot (hp : p ∈ slots) :
  loadedRegs sym c prev next p.1 = savedMem sym c prev next (reg next p.2) := by
  have hrax : ∀ p ∈ slots, p.1 ≠ .rax := by decide
  have hrsp : ∀ p ∈ slots, p.1 ≠ .rsp := by decide
  rw [loadedRegs, update_of_ne (hrax p hp), update_of_ne (hrsp p hp),
    fill_slot slots_regs hp]

lemma reg_loaded : (loaded sym c prev next).reg = loadedRegs sym c prev next := rfl

lemma mem_loaded : (loaded sym c prev next).mem = savedMem sym c prev next := rfl

lemma reg_switchTo (hp : p ∈ slots) :
  (switchTo sym c prev next).reg p.1 = savedMem sym c prev next (reg next p.2) := by
  have hrsp : ∀ p ∈ slots, p.1 ≠ .rsp := by decide
  rw [switchTo_eq, reg_leave (hrsp p hp), ← loadedRegs_slot hp, loaded]

lemma switchTo_resume (hrax : savedMem sym c prev next (reg next 11) = sym.resume) :
  (switchTo sym c prev next).reg .rsp = savedMem sym c prev next (reg next 12) + 8 ∧
    (switchTo sym c prev next).rip =
      savedMem sym c prev next (savedMem sym c prev next (reg next 12)) := by
  rw [← loadedRegs_rax, ← reg_loaded] at hrax
  have hleave := leave_resume hrax
  rwa [reg_loaded, loadedRegs_rsp, mem_loaded, ← switchTo_eq] at hleave

lemma switchTo_jump (hrax : savedMem sym c prev next (reg next 11) ≠ sym.resume) :
  (switchTo sym c prev next).reg .rsp = savedMem sym c prev next (reg next 12) ∧
    (switchTo sym c prev next).rip = savedMem sym c prev next (reg next 11) := by
  rw [← loadedRegs_rax, ← reg_loaded] at hrax
  have hleave := leave_jump hrax
  rwa [reg_loaded, loadedRegs_rsp, loadedRegs_rax, ← switchTo_eq] at hleave

lemma savedMem_slot (hp : p ∈ slots) :
  savedMem sym c prev next (reg prev p.2) = (call c prev next).reg p.1 := by
  have hlt := slots_lt p hp
  have hne : ∀ k, 6 ≤ k → k < 15 → reg prev p.2 ≠ reg prev k := by
    intro k hk hk' heq
    have := reg_injective prev (by omega) hk' heq
    omega
  rw [savedMem, update_of_ne (hne 11 (by omega) (by omega)),
    update_of_ne (hne 12 (by omega) (by omega))]
  exact spill_slot_of_nodup (slots_cells prev) hp

lemma savedMem_outside {w : BitVec 64} (hw : ¬ IsReg prev w) :
  savedMem sym c prev next w = (call c prev next).mem w := by
  rw [savedMem, update_of_ne fun heq => hw ⟨11, by omega, heq⟩,
    update_of_ne fun heq => hw ⟨12, by omega, heq⟩]
  apply spill_outside
  intro p hp heq
  exact hw ⟨p.2, (slots_lt p hp).trans (by omega), heq.symm⟩

lemma parked_switchTo (hanchor : ¬ IsReg prev ((context c).sp - 8)) :
  Parked sym (switchTo sym c prev next).mem prev (context c) := by
  have hslot : ∀ p ∈ slots, savedMem sym c prev next (reg prev p.2) = (call c prev next).reg p.1 :=
    fun p hp => savedMem_slot hp
  simp only [slots, forall_mem_cons] at hslot
  obtain ⟨h0, h1, h2, h3, h4, h5, -⟩ := hslot
  have hne : reg prev 12 ≠ reg prev 11 :=
    fun h => absurd (reg_injective prev (by omega) (by omega) h) (by omega)
  rw [mem_switchTo]
  constructor
  · simp only [h0, h1, h2, h3, h4, h5]
    rfl
  · rw [savedMem, update_self]
  · rw [savedMem, update_of_ne hne, update_self]
    rfl
  rw [savedMem_outside hanchor]
  exact update_self (c.reg .rsp - 8) c.rip c.mem

lemma context_switchTo {ctx : Context}
  (hparked : Parked sym (switchTo sym c prev next).mem next ctx) :
  context (switchTo sym c prev next) = ctx := by
  have hslot : ∀ p ∈ slots,
      (switchTo sym c prev next).reg p.1 = savedMem sym c prev next (reg next p.2) :=
    fun p hp => reg_switchTo hp
  simp only [slots, forall_mem_cons] at hslot
  obtain ⟨h0, h1, h2, h3, h4, h5, -⟩ := hslot
  rw [mem_switchTo] at hparked
  obtain ⟨hsp, hpc⟩ := switchTo_resume hparked.resume
  rw [hparked.sp, BitVec.sub_add_cancel] at hsp
  rw [hparked.sp, hparked.pc] at hpc
  obtain ⟨saved, sp, pc⟩ := ctx
  simp only [context, Context.mk.injEq, h0, h1, h2, h3, h4, h5]
  exact ⟨hparked.saved.symm, hsp, hpc⟩

lemma enters {first top : BitVec 64}
  (hcrafted : Crafted (switchTo sym c prev next).mem next first sym.taskTrampoline top) :
  (context (step sym (switchTo sym c prev next))).pc = first ∧
    (step sym (switchTo sym c prev next)).mem
      ((step sym (switchTo sym c prev next)).reg .rsp) = sym.afterCall ∧
    (step sym (switchTo sym c prev next)).reg .rsp + 8 = top := by
  rw [mem_switchTo] at hcrafted
  have hne : savedMem sym c prev next (reg next 11) ≠ sym.resume := by
    rw [hcrafted.lr]
    exact sym.resume_ne.symm
  obtain ⟨hsp, hpc⟩ := switchTo_jump hne
  rw [hcrafted.lr] at hpc
  obtain ⟨hstep, hreturn, hpushed⟩ := step_trampoline hpc
  refine ⟨?_, hreturn, ?_⟩
  · rw [pc_context, hstep, reg_switchTo (p := (.rbx, 0)) (by decide), hcrafted.first]
  · rw [hpushed, BitVec.sub_add_cancel, hsp, hcrafted.top]

end

/-- The x86-64 port. A call leaves the return address on the stack. -/
def port (sym : Symbols) : Port sym where
  Core := Core
  mem := Core.mem
  setMem c m := { c with mem := m }
  context := context
  switchTo := switchTo sym
  step := step sym
  returnTo c := c.mem (c.reg .rsp)
  frameTop c := c.reg .rsp + 8
  Anchor ctx w := w = ctx.sp - 8
  Parked := Parked sym
  mem_setMem _ _ := rfl
  parked_congr h hmem hanchor := h.congr hmem (hanchor _ rfl)
  mem_switchTo {c prev next w} hw hanchor := by
    rw [mem_switchTo, savedMem_outside hw]
    exact update_of_ne hanchor _ _
  parked_switchTo hanchor := parked_switchTo (hanchor _ rfl)
  context_switchTo := context_switchTo
  enters := enters
  exits := step_afterCall

/-- On either port, and for every layout of tasks and stacks, the context switch is
transparent. -/
theorem context_switches_transparent (sym : Symbols) (L : Layout) :
  Transparent (Arm.port sym) L ∧ Transparent (port sym) L :=
  ⟨transparent _ L, transparent _ L⟩

def pageOwner (w : BitVec 64) : Owner :=
  if hstack : 0x100000 ≤ w.toNat ∧ w.toNat < 0x110000 then
    .stack ⟨(w.toNat - 0x100000) / 0x1000, by rw [maxTasks]; omega⟩
  else if harea : 0x1000 ≤ w.toNat ∧ w.toNat < 0x11000 ∧ w.toNat % 0x1000 < 120 then
    .area ⟨w.toNat / 0x1000 - 1, by rw [maxTasks]; omega⟩
  else .shared

def pageLayout : Layout where
  area i := BitVec.ofNat 64 (0x1000 * (i + 1))
  owner := pageOwner
  owner_reg := by decide +kernel

def pageSymbols : Symbols where
  taskTrampoline := 0x200
  afterCall := 0x208
  resume := 0x100
  schedExit := 0x400
  userEntry := 0x200
  afterCall_ne := by decide
  resume_ne := by decide

def spawner : State (port pageSymbols) where
  core :=
    { reg := fun r => if r = .rsp then 0x101000 else if r = .rbx then 7 else 0
      rip := 0x800
      rflags := 2
      cs := 8
      ss := 16
      mem := craft (fun _ => 0) (pageLayout.area ⟨1, by decide⟩) 0x900 0x200
        (spTop 0x101000 0x1000) }
  cur := ⟨0, by decide⟩

/-- It switches to the second task, which switches back at once. -/
theorem context_switches_transparent_there_and_back :
  (context ((machine (port pageSymbols) pageLayout).step
    ((machine (port pageSymbols) pageLayout).step spawner (.switchTo ⟨1, by decide⟩))
    (.switchTo spawner.cur)).core).pc = 0x800 := by
  have hout : (machine (port pageSymbols) pageLayout).enabled spawner
      (.switchTo ⟨1, by decide⟩) := by
    rintro w rfl
    decide +kernel
  have hback : (machine (port pageSymbols) pageLayout).enabled
      ((machine (port pageSymbols) pageLayout).step spawner (.switchTo ⟨1, by decide⟩))
      (.switchTo spawner.cur) := by
    rintro w rfl
    decide +kernel
  have hresumes := (context_switches_transparent pageSymbols pageLayout).2.resumes
    (by decide) (.single hout) (fun _ he => nomatch he) hback
  exact congrArg Context.pc hresumes.1

end Aeos.Switch.X86
