/-
# Exception stubs and the context switch

The assembly of `boot/aarch64/exceptions.S` and `boot/aarch64/switch.S`, as lists of
instructions over a register file and one stack and one saved register file per task slot. A
pointer is a block and an offset; the top of a stack is offset `0`. Code addresses are symbolic.

Calls into C follow the procedure call standard: the callee may change `x0`-`x18`, `x30` and
everything below the stack pointer.
-/

import Aeos.Lib.Spill
import Mathlib.Algebra.GroupWithZero.Nat
import Mathlib.Data.Fintype.Basic

namespace Aeos.Trap

open Lib List Function

/-! ## Words, registers and memory -/

inductive Block
  /-- The kernel stack of a task slot. -/
  | stack (slot : Nat)
  /-- `tasks[slot].cpu.regs`. -/
  | area (slot : Nat)
  /-- Everything else. -/
  | other
  deriving DecidableEq

inductive Loc
  /-- At EL0. -/
  | user
  /-- In the C code of a system call, `depth` bytes of stack below its activation
  record. -/
  | body (depth : Nat)
  /-- In the C code of a kernel thread. -/
  | thread
  /-- At the start of `syscall_user_drop`. -/
  | userDrop
  /-- Before instruction `k` of the assembly of `syscall_user_drop`. -/
  | dropAsm (k : Nat)
  /-- Before instruction `k` of `cpu_switch_to`. -/
  | switchTo (k : Nat)
  /-- Before instruction `k` of `RESTORE_LOWER` in `handle_sync_lower`. -/
  | restoreLower (k : Nat)
  /-- In the idle loop of `sched_exit`. -/
  | idle
  /-- At an address that holds no kernel code. -/
  | lost
  deriving DecidableEq

structure Pstate where
  el0 : Bool
  irqMasked : Bool
  flags : Nat
  deriving DecidableEq

/-- A 64-bit word, by what it stands for. -/
inductive Word
  | num (n : Nat)
  | ptr (block : Block) (off : Int)
  | code (loc : Loc)
  | pstate (p : Pstate)
  deriving DecidableEq

abbrev Cell := Block × Int

def Word.at (w : Word) (off : Nat) : Cell :=
  match w with
  | .ptr block start => (block, start + off)
  | _ => (.other, off)

def Word.shift (w : Word) (d : Int) : Word :=
  match w with
  | .ptr block off => .ptr block (off + d)
  | w => w

@[simp]
lemma Word.at_ptr (b : Block) (o : Int) (off : Nat) : (Word.ptr b o).at off = (b, o + off) := rfl

lemma Word.at_injective (w : Word) : Function.Injective w.at := by
  intro i j heq
  have hoff := congrArg Prod.snd heq
  cases w <;> simp only [Word.at] at hoff <;> omega

-- Register numbers are written as literals of `Fin 31`.
@[instance]
lemma neZero_registers : NeZero 31 := ⟨by decide⟩

structure Core where
  x : Fin 31 → Word
  sp : Word
  spEl0 : Word
  elr : Word
  spsr : Word
  mem : Cell → Word

/-! ## Instructions -/

inductive Reg
  | x (i : Fin 31)
  | sp
  deriving DecidableEq

inductive SysReg
  | elr
  | spsr
  | spEl0

/-- The instructions the stubs use; offsets are in bytes. -/
inductive Instr
  | stp (a b : Fin 31) (base : Reg) (off : Nat)
  | ldp (a b : Fin 31) (base : Reg) (off : Nat)
  | str (a : Fin 31) (base : Reg) (off : Nat)
  | ldr (a : Fin 31) (base : Reg) (off : Nat)
  | mov (dst src : Reg)
  | mrs (dst : Fin 31) (src : SysReg)
  | msr (dst : SysReg) (src : Fin 31)
  | subSp (n : Nat)
  | addSp (n : Nat)

def Core.get (c : Core) : Reg → Word
  | .x i => c.x i
  | .sp => c.sp

def Core.set (c : Core) (r : Reg) (w : Word) : Core :=
  match r with
  | .x i => { c with x := update c.x i w }
  | .sp => { c with sp := w }

def Core.getSys (c : Core) : SysReg → Word
  | .elr => c.elr
  | .spsr => c.spsr
  | .spEl0 => c.spEl0

def Core.setSys (c : Core) (r : SysReg) (w : Word) : Core :=
  match r with
  | .elr => { c with elr := w }
  | .spsr => { c with spsr := w }
  | .spEl0 => { c with spEl0 := w }

def exec (c : Core) : Instr → Core
  | .stp a b base off =>
    { c with
      mem := update (update c.mem ((c.get base).at off) (c.x a))
        ((c.get base).at (off + 8)) (c.x b) }
  | .ldp a b base off =>
    { c with
      x := update (update c.x a (c.mem ((c.get base).at off))) b
        (c.mem ((c.get base).at (off + 8))) }
  | .str a base off => { c with mem := update c.mem ((c.get base).at off) (c.x a) }
  | .ldr a base off => { c with x := update c.x a (c.mem ((c.get base).at off)) }
  | .mov dst src => c.set dst (c.get src)
  | .mrs dst src => { c with x := update c.x dst (c.getSys src) }
  | .msr dst src => c.setSys dst (c.x src)
  | .subSp n => { c with sp := c.sp.shift (-n) }
  | .addSp n => { c with sp := c.sp.shift n }

def execs (code : List Instr) (c : Core) : Core := code.foldl exec c

/-! ## The source -/

def saveRegs : List Instr :=
  [.subSp (20 * 8),
    .stp 0 1 .sp (0 * 8), .stp 2 3 .sp (2 * 8), .stp 4 5 .sp (4 * 8), .stp 6 7 .sp (6 * 8),
    .stp 8 9 .sp (8 * 8), .stp 10 11 .sp (10 * 8), .stp 12 13 .sp (12 * 8),
    .stp 14 15 .sp (14 * 8), .stp 16 17 .sp (16 * 8), .str 18 .sp (18 * 8), .str 30 .sp (19 * 8),
    .mov (.x 0) .sp]

def restoreRegs : List Instr :=
  [.ldp 0 1 .sp (0 * 8), .ldp 2 3 .sp (2 * 8), .ldp 4 5 .sp (4 * 8), .ldp 6 7 .sp (6 * 8),
    .ldp 8 9 .sp (8 * 8), .ldp 10 11 .sp (10 * 8), .ldp 12 13 .sp (12 * 8),
    .ldp 14 15 .sp (14 * 8), .ldp 16 17 .sp (16 * 8), .ldr 18 .sp (18 * 8), .ldr 30 .sp (19 * 8),
    .addSp (20 * 8)]

def saveLower : List Instr :=
  [.subSp (22 * 8),
    .stp 0 1 .sp (0 * 8), .stp 2 3 .sp (2 * 8), .stp 4 5 .sp (4 * 8), .stp 6 7 .sp (6 * 8),
    .stp 8 9 .sp (8 * 8), .stp 10 11 .sp (10 * 8), .stp 12 13 .sp (12 * 8),
    .stp 14 15 .sp (14 * 8), .stp 16 17 .sp (16 * 8), .str 18 .sp (18 * 8), .str 30 .sp (19 * 8),
    .mrs 2 .elr, .str 2 .sp (20 * 8), .mrs 2 .spsr, .str 2 .sp (21 * 8),
    .mov (.x 0) .sp]

def restoreLower : List Instr :=
  [.ldr 2 .sp (20 * 8), .msr .elr 2, .ldr 2 .sp (21 * 8), .msr .spsr 2,
    .ldp 0 1 .sp (0 * 8), .ldp 2 3 .sp (2 * 8), .ldp 4 5 .sp (4 * 8), .ldp 6 7 .sp (6 * 8),
    .ldp 8 9 .sp (8 * 8), .ldp 10 11 .sp (10 * 8), .ldp 12 13 .sp (12 * 8),
    .ldp 14 15 .sp (14 * 8), .ldp 16 17 .sp (16 * 8), .ldr 18 .sp (18 * 8), .ldr 30 .sp (19 * 8),
    .addSp (22 * 8)]

def cpuSwitchTo : List Instr :=
  [.stp 19 20 (.x 0) 0, .stp 21 22 (.x 0) 16, .stp 23 24 (.x 0) 32, .stp 25 26 (.x 0) 48,
    .stp 27 28 (.x 0) 64, .stp 29 30 (.x 0) 80, .mov (.x 2) .sp, .str 2 (.x 0) 96,
    .ldp 19 20 (.x 1) 0, .ldp 21 22 (.x 1) 16, .ldp 23 24 (.x 1) 32, .ldp 25 26 (.x 1) 48,
    .ldp 27 28 (.x 1) 64, .ldp 29 30 (.x 1) 80, .ldr 2 (.x 1) 96, .mov .sp (.x 2)]

def userDropAsm : List Instr := [.msr .spsr 0, .msr .elr 1, .msr .spEl0 2]

def prologue : List Instr :=
  [.subSp (12 * 8), .stp 19 20 .sp (0 * 8), .stp 21 22 .sp (2 * 8), .stp 23 24 .sp (4 * 8),
    .stp 25 26 .sp (6 * 8), .stp 27 28 .sp (8 * 8), .stp 29 30 .sp (10 * 8)]

def epilogue : List Instr :=
  [.ldp 19 20 .sp (0 * 8), .ldp 21 22 .sp (2 * 8), .ldp 23 24 .sp (4 * 8),
    .ldp 25 26 .sp (6 * 8), .ldp 27 28 .sp (8 * 8), .ldp 29 30 .sp (10 * 8), .addSp (12 * 8)]

def scribble (mem : Cell → Word) (w : Word) (junk : Int → Word) : Cell → Word := fun a =>
  match w with
  | .ptr block off => if a.1 = block ∧ a.2 < off then junk a.2 else mem a
  | _ => mem a

def callC (c : Core) (clobbered : Fin 31 → Word) (junk : Int → Word) : Core :=
  { c with
    x := fun i => if 19 ≤ i ∧ i ≤ 29 then c.x i else clobbered i
    mem := scribble c.mem c.sp junk }

def handleIrqEntry (c : Core) (clobbered : Fin 31 → Word) (junk : Int → Word) : Core :=
  execs restoreRegs (callC (execs saveRegs c) clobbered junk)

def handleIrqLower (c : Core) (clobbered : Fin 31 → Word) (junk : Int → Word) : Core :=
  execs restoreLower (callC (execs saveLower c) clobbered junk)

/-! ## What the stubs do -/

def regsFrame : List (Fin 31 × Nat) :=
  [(0, 0), (1, 8), (2, 16), (3, 24), (4, 32), (5, 40), (6, 48), (7, 56), (8, 64), (9, 72),
    (10, 80), (11, 88), (12, 96), (13, 104), (14, 112), (15, 120), (16, 128), (17, 136),
    (18, 144), (30, 152)]

def calleeFrame : List (Fin 31 × Nat) :=
  [(19, 0), (20, 8), (21, 16), (22, 24), (23, 32), (24, 40), (25, 48), (26, 56), (27, 64),
    (28, 72), (29, 80), (30, 88)]

lemma saveRegs_eq (c : Core) : execs saveRegs c = { c with
      sp := c.sp.shift (-160)
      x := update c.x 0 (c.sp.shift (-160))
      mem := spill (c.sp.shift (-160)).at c.x regsFrame c.mem } := by
  simp only [execs, saveRegs, foldl_cons, foldl_nil, exec, Core.get, Core.set, spill,
    regsFrame]
  rfl

lemma restoreRegs_eq (c : Core) : execs restoreRegs c =
    { c with sp := c.sp.shift 160, x := fill c.sp.at c.mem regsFrame c.x } := by
  simp only [execs, restoreRegs, foldl_cons, foldl_nil, exec, Core.get, fill, regsFrame]
  rfl

lemma saveLower_eq (c : Core) : execs saveLower c = { c with
      sp := c.sp.shift (-176)
      x := update (update (update c.x 2 c.elr) 2 c.spsr) 0
        (c.sp.shift (-176))
      mem := update (update (spill (c.sp.shift (-176)).at c.x regsFrame c.mem)
        ((c.sp.shift (-176)).at 160) c.elr) ((c.sp.shift (-176)).at 168) c.spsr } := by
  simp only [execs, saveLower, foldl_cons, foldl_nil, exec, Core.get, Core.set,
    Core.getSys, update_self, spill, regsFrame]
  rfl

lemma restoreLower_eq (c : Core) : execs restoreLower c = { c with
      sp := c.sp.shift 176
      elr := c.mem (c.sp.at 160)
      spsr := c.mem (c.sp.at 168)
      x := fill c.sp.at c.mem regsFrame (update (update c.x 2
        (c.mem (c.sp.at 160))) 2 (c.mem (c.sp.at 168))) } := by
  simp only [execs, restoreLower, foldl_cons, foldl_nil, exec, Core.get, Core.setSys,
    update_self, fill, regsFrame]
  rfl

lemma prologue_eq (c : Core) : execs prologue c = { c with
      sp := c.sp.shift (-96)
      mem := spill (c.sp.shift (-96)).at c.x calleeFrame c.mem } := by
  simp only [execs, prologue, foldl_cons, foldl_nil, exec, Core.get, spill, calleeFrame]
  rfl

lemma epilogue_eq (c : Core) : execs epilogue c =
    { c with sp := c.sp.shift 96, x := fill c.sp.at c.mem calleeFrame c.x } := by
  simp only [execs, epilogue, foldl_cons, foldl_nil, exec, Core.get, fill, calleeFrame]
  rfl

def switchMem (c : Core) : Cell → Word :=
  update (spill (c.x 0).at c.x calleeFrame c.mem) ((c.x 0).at 96) c.sp

lemma cpuSwitchTo_eq (c : Core) : execs cpuSwitchTo c = { c with
      sp := switchMem c ((c.x 1).at 96)
      mem := switchMem c
      x := update (fill (c.x 1).at (switchMem c) calleeFrame
        (update c.x 2 c.sp)) 2 (switchMem c ((c.x 1).at 96)) } := by
  simp only [execs, cpuSwitchTo, foldl_cons, foldl_nil, exec, Core.get, Core.set, fill,
    spill, calleeFrame, switchMem]
  rfl

lemma regsFrame_regs : (regsFrame.map Prod.fst).Nodup := by decide

lemma regsFrame_slots : (regsFrame.map Prod.snd).Nodup := by decide

lemma regsFrame_lt : ∀ p ∈ regsFrame, p.2 < 160 := by decide

lemma calleeFrame_regs : (calleeFrame.map Prod.fst).Nodup := by decide

lemma calleeFrame_slots : (calleeFrame.map Prod.snd).Nodup := by decide

lemma calleeFrame_lt : ∀ p ∈ calleeFrame, p.2 < 96 := by decide

lemma saved_of_notMem_regsFrame :
  ∀ r : Fin 31, r ∉ regsFrame.map Prod.fst → 19 ≤ r ∧ r ≤ 29 := by decide

/-! ## Interrupts -/

def below (b : Block) (o : Int) (a : Cell) : Prop := a.1 = b ∧ a.2 < o

structure Alike (dead : Cell → Prop) (c c' : Core) : Prop where
  x : c'.x = c.x
  sp : c'.sp = c.sp
  spEl0 : c'.spEl0 = c.spEl0
  mem : ∀ a, ¬ dead a → c'.mem a = c.mem a

variable {dead : Cell → Prop} {c c' : Core} {i : Instr}

lemma Alike.trans {c'' : Core} (h : Alike dead c c') (h' : Alike dead c' c'') :
  Alike dead c c'' where
  x := h'.x.trans h.x
  sp := h'.sp.trans h.sp
  spEl0 := h'.spEl0.trans h.spEl0
  mem a ha := (h'.mem a ha).trans (h.mem a ha)

lemma Alike.mono {dead' : Cell → Prop} (h : Alike dead c c') (hsub : ∀ a, dead a → dead' a) :
  Alike dead' c c' :=
  ⟨h.x, h.sp, h.spEl0, fun a ha => h.mem a (mt (hsub a) ha)⟩

section
variable {c : Core} {b : Block} {o : Int} {a : Cell}

lemma scribble_above (m : Cell → Word) (junk : Int → Word) (ha : ¬ below b o a) :
  scribble m (.ptr b o) junk a = m a := if_neg ha

lemma callC_mem (hsp : c.sp = .ptr b o) (clobbered : Fin 31 → Word) (junk : Int → Word)
    (ha : ¬ below b o a) : (callC c clobbered junk).mem a = c.mem a := by
  simp only [callC, hsp]
  exact scribble_above c.mem junk ha

lemma spill_above {frame : List (Fin 31 × Nat)} {size : Nat} (hlt : ∀ p ∈ frame, p.2 < size)
  (x : Fin 31 → Word) (m : Cell → Word) (ha : ¬ below b o a) :
  spill (Word.ptr b (o - size)).at x frame m a = m a := by
  refine spill_outside fun p hp heq => ha ?_
  have hp := hlt p hp
  rw [Word.at_ptr] at heq
  rw [← heq]
  exact ⟨rfl, by dsimp only; omega⟩

lemma callC_x {r : Fin 31} (hr : r ∉ regsFrame.map Prod.fst) (clobbered : Fin 31 → Word)
  (junk : Int → Word) : (callC c clobbered junk).x r = c.x r :=
  if_pos (saved_of_notMem_regsFrame r hr)

lemma notMem_regsFrame_ne {r : Fin 31} (hr : r ∉ regsFrame.map Prod.fst) : r ≠ 0 ∧ r ≠ 2 := by
  constructor <;> rintro rfl <;> exact hr (by decide)

lemma not_below_at (off : Nat) : ¬ below b o ((Word.ptr b o).at off) := by
  rintro ⟨_, hlt⟩
  simp only [Word.at_ptr] at hlt
  omega

variable (hsp : c.sp = .ptr b o)
include hsp

lemma handleIrqEntry_alike (clobbered : Fin 31 → Word) (junk : Int → Word) :
    Alike (below b o) c (handleIrqEntry c clobbered junk) := by
  have hframe : c.sp.shift (-160) = .ptr b (o - 160) := by rw [hsp]; rfl
  obtain ⟨c₁, hc₁⟩ : ∃ c₁, c₁ = execs saveRegs c := ⟨_, rfl⟩
  have hsaved := hc₁
  rw [saveRegs_eq, hframe] at hsaved
  have hsp₁ : c₁.sp = .ptr b (o - 160) := by rw [hsaved]
  have hcall : (callC c₁ clobbered junk).sp = .ptr b (o - 160) := hsp₁
  rw [handleIrqEntry, ← hc₁, restoreRegs_eq, hcall]
  refine ⟨fill_eq regsFrame_regs (fun p hp => ?_) fun r hr => ?_, ?_, ?_, fun a ha => ?_⟩
  · rw [callC_mem hsp₁ clobbered junk (not_below_at p.2), hsaved]
    exact spill_slot (Word.at_injective _) regsFrame_slots hp
  · rw [callC_x hr clobbered junk, hsaved]
    exact update_of_ne (notMem_regsFrame_ne hr).1 _ _
  · rw [hsp]
    exact congrArg (Word.ptr b) (Int.sub_add_cancel o 160)
  · change c₁.spEl0 = c.spEl0
    rw [hsaved]
  have hdown : ¬ below b (o - 160) a := fun h => ha ⟨h.1, by have := h.2; omega⟩
  dsimp only
  rw [callC_mem hsp₁ clobbered junk hdown, hsaved]
  exact spill_above regsFrame_lt c.x c.mem ha

lemma saveLower_frame :
  (∀ p ∈ regsFrame, (execs saveLower c).mem ((Word.ptr b (o - 176)).at p.2) = c.x p.1) ∧
    (execs saveLower c).mem ((Word.ptr b (o - 176)).at 160) = c.elr ∧
    (execs saveLower c).mem ((Word.ptr b (o - 176)).at 168) = c.spsr ∧
    ∀ a, ¬ below b o a → (execs saveLower c).mem a = c.mem a := by
  have hframe : c.sp.shift (-176) = .ptr b (o - 176) := by rw [hsp]; rfl
  have hinj := Word.at_injective (.ptr b (o - 176))
  rw [saveLower_eq, hframe]
  refine ⟨fun p hp => ?_, ?_, ?_, fun a ha => ?_⟩
  · have hlt := regsFrame_lt p hp
    dsimp only
    rw [update_of_ne (hinj.ne (by omega)), update_of_ne (hinj.ne (by omega))]
    exact spill_slot hinj regsFrame_slots hp
  · dsimp only
    rw [update_of_ne (hinj.ne (by omega)), update_self]
  · dsimp only
    rw [update_self]
  have hne : ∀ off : Nat, off < 176 → a ≠ (Word.ptr b (o - 176)).at off := by
    rintro off hoff rfl
    exact ha ⟨rfl, by dsimp only [Word.at_ptr]; omega⟩
  dsimp only
  rw [update_of_ne (hne 168 (by decide)), update_of_ne (hne 160 (by decide))]
  exact spill_above (fun p hp => (regsFrame_lt p hp).trans (by decide)) _ _ ha

lemma handleIrqLower_alike (clobbered : Fin 31 → Word) (junk : Int → Word) :
  Alike (below b o) c (handleIrqLower c clobbered junk) ∧
    (handleIrqLower c clobbered junk).elr = c.elr ∧
    (handleIrqLower c clobbered junk).spsr = c.spsr := by
  obtain ⟨hregs, helr, hspsr, hmem⟩ := saveLower_frame hsp
  have hsp₁ : (execs saveLower c).sp = .ptr b (o - 176) := by rw [saveLower_eq, hsp]; rfl
  have hx : ∀ r, r ∉ regsFrame.map Prod.fst → (execs saveLower c).x r = c.x r := by
    intro r hr
    obtain ⟨h₀, h₂⟩ := notMem_regsFrame_ne hr
    rw [saveLower_eq]
    dsimp only
    rw [update_of_ne h₀, update_of_ne h₂, update_of_ne h₂]
  have hspEl0 : (execs saveLower c).spEl0 = c.spEl0 := by rw [saveLower_eq]
  rw [handleIrqLower, restoreLower_eq]
  generalize execs saveLower c = c₁ at hregs helr hspsr hmem hsp₁ hx hspEl0
  have hcall : (callC c₁ clobbered junk).sp = .ptr b (o - 176) := hsp₁
  have hkept : ∀ off, (callC c₁ clobbered junk).mem ((Word.ptr b (o - 176)).at off) =
      c₁.mem ((Word.ptr b (o - 176)).at off) := fun off => callC_mem hsp₁ _ _ (not_below_at off)
  rw [hcall]
  refine ⟨⟨fill_eq regsFrame_regs (fun p hp => ?_) fun r hr => ?_, ?_, hspEl0, fun a ha => ?_⟩,
    ?_, ?_⟩
  · exact (hkept p.2).trans (hregs p hp)
  · obtain ⟨_, h₂⟩ := notMem_regsFrame_ne hr
    rw [update_of_ne h₂, update_of_ne h₂]
    exact (callC_x hr _ _).trans (hx r hr)
  · rw [hsp]
    exact congrArg (Word.ptr b) (Int.sub_add_cancel o 176)
  · have hdown : ¬ below b (o - 176) a := fun h => ha ⟨h.1, by have := h.2; omega⟩
    exact (callC_mem hsp₁ clobbered junk hdown).trans (hmem a ha)
  · exact (hkept 160).trans helr
  · exact (hkept 168).trans hspsr

end

/-! ## Frame rules for instructions -/

def Instr.writes : Instr → List Reg
  | .ldp a b _ _ => [.x a, .x b]
  | .ldr a _ _ => [.x a]
  | .mov dst _ => [dst]
  | .mrs dst _ => [.x dst]
  | .subSp _ | .addSp _ => [.sp]
  | .stp .. | .str .. | .msr .. => []

def Instr.reads (c : Core) : Instr → List Cell
  | .ldp _ _ base off => [(c.get base).at off, (c.get base).at (off + 8)]
  | .ldr _ base off => [(c.get base).at off]
  | _ => []

def Instr.plain : Instr → Bool
  | .mrs .. | .msr .. => false
  | _ => true

def Instr.stores : Instr → Bool
  | .stp .. | .str .. => true
  | _ => false

def Instr.setsSpEl0 : Instr → Bool
  | .msr .spEl0 _ => true
  | _ => false

lemma exec_mem (hi : i.stores = false) (c : Core) : (exec c i).mem = c.mem := by
  cases i with
  | stp | str => cases hi
  | mov dst _ => cases dst <;> rfl
  | msr dst _ => cases dst <;> rfl
  | ldp | ldr | mrs | subSp | addSp => rfl

lemma exec_spEl0 (hi : i.setsSpEl0 = false) (c : Core) : (exec c i).spEl0 = c.spEl0 := by
  cases i with
  | msr dst _ =>
    cases dst with
    | spEl0 => cases hi
    | elr | spsr => rfl
  | mov dst _ => cases dst <;> rfl
  | stp | str | ldp | ldr | mrs | subSp | addSp => rfl

lemma exec_get {r : Reg} (hr : r ∉ i.writes) (c : Core) : (exec c i).get r = c.get r := by
  cases i with
  | stp | str => cases r <;> rfl
  | msr dst _ => cases dst <;> cases r <;> rfl
  | ldp | ldr | mrs =>
    cases r with
    | sp => rfl
    | x j => simp_all [Instr.writes, exec, Core.get]
  | mov dst src =>
    cases dst <;> cases r <;> simp_all [Instr.writes, exec, Core.get, Core.set]
  | subSp | addSp =>
    cases r with
    | x j => rfl
    | sp => simp [Instr.writes] at hr

variable {code : List Instr}

lemma execs_get {r : Reg} (hr : ∀ i ∈ code, r ∉ i.writes) (c : Core) :
  (execs code c).get r = c.get r := by
  induction code generalizing c with
  | nil => rfl
  | cons i code ih =>
    obtain ⟨hi, hrest⟩ := forall_mem_cons.mp hr
    rw [execs, foldl_cons, ← execs, ih hrest, exec_get hi]

lemma execs_take_succ {k : Nat} (hi : code[k]? = some i) (c : Core) :
  execs (code.take (k + 1)) c = exec (execs (code.take k) c) i := by
  rw [take_add_one, hi, execs, foldl_append]
  rfl

/-- Alike states stay alike under an instruction that reads no dead cell. -/
lemma exec_alike (h : Alike dead c c') (hplain : i.plain = true)
  (hreads : ∀ a ∈ i.reads c, ¬ dead a) : Alike dead (exec c i) (exec c' i) := by
  have hget : ∀ r, c'.get r = c.get r := by
    intro r
    cases r with
    | x j => exact congrFun h.x j
    | sp => exact h.sp
  have hstore : ∀ (m m' : Cell → Word) (a : Cell) (w : Word),
      (∀ a, ¬ dead a → m' a = m a) → ∀ a', ¬ dead a' →
        update m' a w a' = update m a w a' := by
    intro m m' a w hm a' ha'
    by_cases heq : a' = a
    · rw [heq, update_self, update_self]
    · rw [update_of_ne heq, update_of_ne heq, hm a' ha']
  cases i with
  | stp a b base off =>
    refine ⟨h.x, h.sp, h.spEl0, ?_⟩
    simp only [exec, hget, h.x]
    exact hstore _ _ _ _ (hstore _ _ _ _ h.mem)
  | str a base off =>
    refine ⟨h.x, h.sp, h.spEl0, ?_⟩
    simp only [exec, hget, h.x]
    exact hstore _ _ _ _ h.mem
  | ldp a b base off =>
    obtain ⟨hfirst, hrest⟩ := forall_mem_cons.mp hreads
    refine ⟨?_, h.sp, h.spEl0, h.mem⟩
    simp only [exec, hget, h.x, h.mem _ hfirst, h.mem _ (hrest _ mem_cons_self)]
  | ldr a base off =>
    refine ⟨?_, h.sp, h.spEl0, h.mem⟩
    simp only [exec, hget, h.x, h.mem _ (hreads _ mem_cons_self)]
  | mov dst src =>
    cases dst with
    | x j => exact ⟨by simp only [exec, Core.set, hget, h.x], h.sp, h.spEl0, h.mem⟩
    | sp => exact ⟨h.x, hget src, h.spEl0, h.mem⟩
  | mrs | msr => cases hplain
  | subSp n => exact ⟨h.x, congrArg (Word.shift · (-n)) h.sp, h.spEl0, h.mem⟩
  | addSp n => exact ⟨h.x, congrArg (Word.shift · n) h.sp, h.spEl0, h.mem⟩

end Aeos.Trap
