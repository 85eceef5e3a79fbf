/-
# What is saved of a trapped task

The invariant behind the return path: a task that is switched out has its stack pointer and
return address in its saved register file, and a task in a system call has an activation record
and, above it, an exception frame on its kernel stack.
-/

import Aeos.Sched.OneRunner
import Aeos.Trap.Model

namespace Aeos.Trap

open Lib
open Function (update update_of_ne)

/-! ## Frames on the kernel stack -/

def Call.regs (t : Call) : Fin 31 → Word := update t.ctx.x 0 t.result

structure Frame (m : Cell → Word) (slot : Nat) (t : Call) (f : Int) : Prop where
  regs : ∀ p ∈ regsFrame, m ((Word.ptr (.stack slot) f).at p.2) = t.regs p.1
  elr : m ((Word.ptr (.stack slot) f).at 160) = t.ctx.pc
  spsr : m ((Word.ptr (.stack slot) f).at 168) = .pstate (userPstate t.ctx.flags)

structure Record (m : Cell → Word) (slot : Nat) (t : Call) (r : Int) : Prop where
  regs : ∀ p ∈ calleeFrame, m ((Word.ptr (.stack slot) r).at p.2) =
    update t.ctx.x 30 (.code (.restoreLower 0)) p.1
  frame : Frame m slot t (r + 96)

def Resumable (m : Cell → Word) (slot : Nat) (t : Option Call) (loc : Loc) (o : Int) : Prop :=
  match loc, t with
  | .body depth, some t => Record m slot t (o + depth)
  | .thread, none => True
  | .userDrop, none => True
  | _, _ => False

def Parked (m : Cell → Word) (slot : Nat) (t : Option Call) : Prop :=
  ∃ o loc, m (.area slot, 96) = .ptr (.stack slot) o ∧ m (.area slot, 88) = .code loc ∧
    Resumable m slot t loc o

section
variable {m m' : Cell → Word} {slot : Nat} {t : Call}

lemma Frame.congr {f : Int} (h : Frame m slot t f)
  (hm : ∀ off, f ≤ off → m' (.stack slot, off) = m (.stack slot, off)) : Frame m' slot t f := by
  have hcell : ∀ k : Nat, m' ((Word.ptr (.stack slot) f).at k) =
      m ((Word.ptr (.stack slot) f).at k) := fun k => hm _ (by omega)
  exact ⟨fun p hp => (hcell p.2).trans (h.regs p hp), (hcell 160).trans h.elr,
    (hcell 168).trans h.spsr⟩

lemma Record.congr {r : Int} (h : Record m slot t r)
  (hm : ∀ off, r ≤ off → m' (.stack slot, off) = m (.stack slot, off)) : Record m' slot t r :=
  ⟨fun p hp => (hm _ (by omega)).trans (h.regs p hp),
    h.frame.congr fun off hoff => hm off (by omega)⟩

lemma Record.setResult {r : Int} (h : Record m slot t r) (w : Word) :
  Record (update m ((Word.ptr (.stack slot) r).at 96) w) slot { t with result := w } r := by
  have hinj := Word.at_injective (.ptr (.stack slot) r)
  have hframe : ∀ k : Nat, (Word.ptr (.stack slot) (r + 96)).at k =
      (Word.ptr (.stack slot) r).at (96 + k) := by
    intro k
    simp only [Word.at_ptr, Nat.cast_add, Nat.cast_ofNat, Int.add_assoc]
  have hother : ∀ k : Nat, k ≠ 0 →
      update m ((Word.ptr (.stack slot) r).at 96) w
          ((Word.ptr (.stack slot) (r + 96)).at k) =
        m ((Word.ptr (.stack slot) (r + 96)).at k) := by
    intro k hk
    rw [hframe, update_of_ne (hinj.ne (by omega))]
  have hzero : ∀ p ∈ regsFrame, p.2 = 0 ↔ p.1 = 0 := by decide
  refine ⟨fun p hp => ?_, ⟨fun p hp => ?_, ?_, ?_⟩⟩
  · have hlt := calleeFrame_lt p hp
    rw [update_of_ne (hinj.ne (by omega)), h.regs p hp]
  · by_cases hp0 : p.2 = 0
    · rw [hp0, hframe, (hzero p hp).mp hp0]
      simp only [Call.regs, Nat.add_zero, Function.update_self]
    have hreg : p.1 ≠ 0 := mt (hzero p hp).mpr hp0
    rw [hother _ hp0, h.frame.regs p hp, Call.regs, Call.regs, update_of_ne hreg,
      update_of_ne hreg]
  · rw [hother 160 (by decide), h.frame.elr]
  · rw [hother 168 (by decide), h.frame.spsr]

lemma Resumable.congr {t : Option Call} {loc : Loc} {o : Int} (h : Resumable m slot t loc o)
  (hm : ∀ off, o ≤ off → m' (.stack slot, off) = m (.stack slot, off)) :
  Resumable m' slot t loc o := by
  unfold Resumable at h ⊢
  split at h
  · exact Record.congr h fun off hoff => hm off (by omega)
  · exact h
  · exact h
  · exact h

lemma Parked.congr {t : Option Call} (h : Parked m slot t)
  (harea : ∀ off, m' (.area slot, off) = m (.area slot, off))
  (hstack : ∀ off, m' (.stack slot, off) = m (.stack slot, off)) : Parked m' slot t := by
  obtain ⟨o, loc, hsp, hlr, hres⟩ := h
  exact ⟨o, loc, (harea 96).trans hsp, (harea 88).trans hlr, hres.congr fun off _ => hstack off⟩

end

def State.Ready (s : State) (t : Nat) : Prop :=
  t < Sched.maxTasks ∧ s.sched.view.st t = .ready

def AllParked (s : State) : Prop := ∀ t, s.Ready t → Parked s.core.mem t (s.trapped t)

def Loc.inKernel : Loc → Bool
  | .user => false
  | .dropAsm k => k < 3
  | _ => true

def SharedSp (s : State) : Prop :=
  ∃ v, (∀ t call, s.trapped t = some call → t < Sched.maxTasks ∧ call.ctx.spEl0 = v) ∧
    (s.loc.inKernel = true → s.core.spEl0 = v)

def deadIn (p : Nat) (o : Int) (n : Nat) (on : Int) (a : Cell) : Prop :=
  below (.stack p) o a ∨ below (.stack n) on a

structure SwitchCall (s : State) (p n : Nat) (o on : Int) (lr ln : Loc) (c : Core) : Prop where
  ne : p ≠ n
  prevArea : c.x 0 = .ptr (.area p) 0
  nextArea : c.x 1 = .ptr (.area n) 0
  sp : c.sp = .ptr (.stack p) o
  link : c.x 30 = .code lr
  leaving : s.Ready p → Resumable c.mem p (s.trapped p) lr o
  nextSp : c.mem (.area n, 96) = .ptr (.stack n) on
  nextLink : c.mem (.area n, 88) = .code ln
  entering : Resumable c.mem n (s.trapped n) ln on
  rest : ∀ t, t ≠ p → s.Ready t → Parked c.mem t (s.trapped t)

inductive Phase (s : State) (c : Nat) : Prop
  /-- In C code. -/
  | running (o : Int) (hsp : s.core.sp = .ptr (.stack c) o)
      (hres : Resumable s.core.mem c (s.trapped c) s.loc o) (hall : AllParked s)
  | user (o : Int) (hloc : s.loc = .user) (hsp : s.core.sp = .ptr (.stack c) o)
      (hnone : s.trapped c = none) (hall : AllParked s)
  | idle (o : Int) (hloc : s.loc = .idle) (hsp : s.core.sp = .ptr (.stack c) o)
      (hall : AllParked s)
  | dropping (k : Nat) (o : Int) (hloc : s.loc = .dropAsm k) (hk : k ≤ 3)
      (hsp : s.core.sp = .ptr (.stack c) o) (hnone : s.trapped c = none)
      (hx : s.core.x 0 = .pstate (userPstate 0))
      (hspsr : 1 ≤ k → s.core.spsr = .pstate (userPstate 0)) (hall : AllParked s)
  /-- In `RESTORE_LOWER`, entered with the registers and memory of `c₀`. -/
  | restoring (k : Nat) (f : Int) (t : Call) (c₀ : Core) (hloc : s.loc = .restoreLower k)
      (hk : k ≤ 16) (ht : s.trapped c = some t) (hsp : c₀.sp = .ptr (.stack c) f)
      (hframe : Frame c₀.mem c t f)
      (hx : ∀ r, r ∉ regsFrame.map Prod.fst → c₀.x r = t.ctx.x r)
      (hcore : s.core = execs (restoreLower.take k) c₀) (hall : AllParked s)
  /-- In `cpu_switch_to`, called with the registers and memory of `c₀`. -/
  | switching (k p : Nat) (o on : Int) (lr ln : Loc) (c₀ : Core) (hloc : s.loc = .switchTo k)
      (hk : k ≤ 16) (hcall : SwitchCall s p c o on lr ln c₀)
      (halike : Alike (deadIn p o c on) (execs (cpuSwitchTo.take k) c₀) s.core)

def Inv (s : State) : Prop :=
  ∃ c, s.sched.current = some c ∧ Sched.OneRunner s.sched.view ∧ SharedSp s ∧ Phase s c

variable {c : Nat}

lemma cur_eq {s : State} (hcur : s.sched.current = some c) : s.cur = c := by
  rw [State.cur, hcur]
  rfl

lemma ready_ne {s : State} (hcur : s.sched.current = some c)
  (hone : Sched.OneRunner s.sched.view) {t : Nat} (ht : s.Ready t) : t ≠ c := by
  rintro rfl
  obtain ⟨c', hcur', _, _, hstate⟩ := hone
  obtain rfl : t = c' := Option.some.inj (hcur.symm.trans hcur')
  rcases hstate with hrun | ⟨hdone, _⟩
  · exact absurd (ht.2.symm.trans hrun) (by decide)
  · exact absurd (ht.2.symm.trans hdone) (by decide)

lemma AllParked.of_stack {s s' : State} (h : AllParked s)
  (hview : s'.sched.view = s.sched.view) (hcur : s.sched.current = some c)
  (hone : Sched.OneRunner s.sched.view) (htrapped : ∀ t, t ≠ c → s'.trapped t = s.trapped t)
  (hmem : ∀ a : Cell, a.1 ≠ .stack c → s'.core.mem a = s.core.mem a) : AllParked s' := by
  intro t ht
  have ht' : s.Ready t := ⟨ht.1, hview ▸ ht.2⟩
  have hne := ready_ne hcur hone ht'
  rw [htrapped t hne]
  exact (h t ht').congr (fun off => hmem _ (by simp)) fun off => hmem _ (by simpa using hne)

end Aeos.Trap
