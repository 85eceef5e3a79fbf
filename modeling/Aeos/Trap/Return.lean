/-
# Returning to user mode

A system call returns to EL0 with the context of its `SVC`, along every run in which no timer
interrupt lands between the last write to ELR_EL1 or SPSR_EL1 and the `ERET`, and tasks in
system calls at the same time trapped with equal SP_EL0.
-/

import Aeos.Trap.Steps

namespace Aeos.Trap

open Lib
open Function (update update_of_ne update_self)

def trapGuard (s : State) : Event → Prop
  | .tick _ _ => s.loc.returning = false
  | .svc u => ∀ t < Sched.maxTasks, t ≠ s.cur → ∀ call ∈ s.trapped t, call.ctx.spEl0 = u.spEl0
  | _ => True

instance (s : State) (e : Event) : Decidable ((trapMachine.restrict trapGuard).enabled s e) :=
  match e with
  | .tick _ _ => inferInstanceAs (Decidable (admits s _ = true ∧ s.loc.returning = false))
  | .svc u => inferInstanceAs (Decidable (admits s (.svc u) = true ∧
      ∀ t < Sched.maxTasks, t ≠ s.cur → ∀ call ∈ s.trapped t, call.ctx.spEl0 = u.spEl0))
  | .tickUser u x j => inferInstanceAs (Decidable (admits s (.tickUser u x j) = true ∧ True))
  | .work w => inferInstanceAs (Decidable (admits s (.work w) = true ∧ True))
  | .call e => inferInstanceAs (Decidable (admits s (.call e) = true ∧ True))
  | .finish => inferInstanceAs (Decidable (admits s .finish = true ∧ True))
  | .asm => inferInstanceAs (Decidable (admits s .asm = true ∧ True))

variable {s : State}

lemma Inv.work (h : Inv s) (w : Work) (hadmits : admits s (.work w) = true) :
  Inv (react s (.work w)) := by
  obtain ⟨c, hcur, hone, hshared, hphase⟩ := h
  cases hloc : s.loc with
  | body depth =>
    have hstep : react s (.work w) = workBody s depth w := by simp only [react, hloc]
    rw [hstep]
    refine ⟨c, hcur, hone, ?_, hphase.workBody hcur hone hloc w⟩
    refine hshared.congr (fun t call ht => ?_) fun _ => ⟨by rw [hloc]; rfl, rfl⟩
    cases hr : w.result with
    | none =>
      simp only [workBody, hr] at ht
      exact ⟨call, ht, rfl⟩
    | some r =>
      simp only [workBody, hr] at ht
      by_cases htc : t = s.cur
      · rw [htc, update_self] at ht
        obtain ⟨call', hcall', rfl⟩ := Option.map_eq_some_iff.mp ht
        exact ⟨call', htc ▸ hcall', rfl⟩
      rw [update_of_ne htc] at ht
      exact ⟨call, ht, rfl⟩
  | thread =>
    have hstep : react s (.work w) = workThread s w := by simp only [react, hloc]
    rw [hstep]
    exact ⟨c, hcur, hone, hshared.of_trapped_eq rfl fun _ => ⟨by rw [hloc]; rfl, rfl⟩,
      hphase.workThread hcur hone hloc w⟩
  | userDrop =>
    have hstep : react s (.work w) = workDrop s w := by simp only [react, hloc]
    rw [hstep]
    exact ⟨c, hcur, hone, hshared.of_trapped_eq rfl fun _ => ⟨by rw [hloc]; rfl, rfl⟩,
      hphase.workDrop hcur hone hloc w⟩
  | user | dropAsm | switchTo | restoreLower | idle | lost => simp [admits, hloc] at hadmits

lemma Inv.svc (h : Inv s) (u : Ctx) (hloc : s.loc = .user)
  (hguard : trapGuard s (.svc u)) : Inv (svc s u) := by
  obtain ⟨c, hcur, hone, hshared, hphase⟩ := h
  obtain ⟨o, hsp, _, _⟩ := hphase.of_user hloc
  refine ⟨c, hcur, hone, ⟨u.spEl0, fun t call ht => ?_, fun _ => (svc_record hsp u).2.2.2⟩,
    hphase.svc hcur hone hloc u⟩
  obtain ⟨v, hcalls, _⟩ := hshared
  have ht : update s.trapped s.cur (some ⟨u, u.x 0⟩) t = some call := ht
  by_cases htc : t = s.cur
  · rw [htc, update_self] at ht
    obtain rfl := Option.some.inj ht
    rw [htc, cur_eq hcur]
    exact ⟨hone.lt hcur, rfl⟩
  rw [update_of_ne htc] at ht
  have hlt := (hcalls t call ht).1
  exact ⟨hlt, hguard t hlt htc call ht⟩

lemma inv_of_reachable (hs : (trapMachine.restrict trapGuard).Reachable s) : Inv s := by
  refine hs.invariant Inv ?_ ?_
  · rintro s ⟨⟨before, mainName, hsched⟩, hloc, ⟨o, hsp⟩, htrapped⟩
    refine ⟨0, by rw [hsched]; rfl, hsched ▸ Sched.oneRunner_schedInit before mainName,
      ⟨s.core.spEl0, fun t call ht => ?_, fun _ => rfl⟩, .running o hsp ?_ fun t ht => ?_⟩
    · rw [htrapped] at ht
      cases ht
    · rw [hloc, htrapped]
      trivial
    -- No slot is READY right after `sched_init`.
    obtain ⟨hlt, hready⟩ := ht
    rw [hsched] at hready
    exfalso
    by_cases ht0 : t = 0
    · simp [Sched.State.view, Sched.schedInit, ht0] at hready
    · simp [Sched.State.view, Sched.schedInit, ht0, hlt, Sched.idleTask] at hready
  rintro s e h ⟨hadmits, hguard⟩
  have hadmits : admits s e = true := hadmits
  cases e with
  | tick clobbered junk =>
    obtain ⟨c, hcur, hone, hshared, hphase⟩ := h
    have huser : s.loc ≠ .user := by
      intro hloc
      simp [admits, hloc] at hadmits
    obtain ⟨c', hspEl0, heq, hphase'⟩ := hphase.tick hcur hone huser hguard clobbered junk
    change Inv (tickKernel s clobbered junk)
    rw [heq]
    refine ⟨c, (Sched.schedOnTick_current _).trans hcur, ?_,
      hshared.of_trapped_eq rfl fun hin => ⟨hin, hspEl0⟩, hphase'⟩
    change Sched.OneRunner (Sched.schedOnTick s.sched).view
    rwa [Sched.view_schedOnTick]
  | tickUser u clobbered junk =>
    obtain ⟨c, hcur, hone, hshared, hphase⟩ := h
    have hloc : s.loc = .user := by simpa [admits] using hadmits
    obtain ⟨hphase', hsched, hloc', htrapped⟩ :=
      hphase.tickUser hcur hone hloc u clobbered junk
    refine ⟨c, ?_, ?_, hshared.of_trapped_eq htrapped fun hin => ?_, hphase'⟩
    · change (tickUser s u clobbered junk).sched.current = _
      rw [hsched, Sched.schedOnTick_current, hcur]
    · change Sched.OneRunner (tickUser s u clobbered junk).sched.view
      rwa [hsched, Sched.view_schedOnTick]
    have hin : (tickUser s u clobbered junk).loc.inKernel = true := hin
    rw [hloc'] at hin
    cases hin
  | svc u => exact h.svc u (by simpa [admits] using hadmits) hguard
  | work w => exact h.work w hadmits
  | call e =>
    obtain ⟨hin, hexec, he⟩ : s.loc.inC = true ∧ executing s.sched = true ∧ e ≠ .tick := by
      cases hloc : s.loc <;> simp_all [admits, Loc.inC]
    exact h.call hin (executing_iff hexec) he
  | finish =>
    obtain ⟨depth, hloc⟩ : ∃ depth, s.loc = .body depth := by
      cases hloc : s.loc <;> simp_all [admits]
    obtain ⟨c, hcur, hone, hshared, hphase⟩ := h
    obtain ⟨core, heq, hspEl0, hphase'⟩ := hphase.finish hcur hone hloc
    have hstep : trapMachine.step s .finish = finish s depth := by
      change react s .finish = _
      simp only [react, hloc]
    change Inv (trapMachine.step s .finish)
    rw [hstep, heq]
    exact ⟨c, hcur, hone, hshared.of_trapped_eq rfl fun _ => ⟨by rw [hloc]; rfl, hspEl0⟩,
      hphase'⟩
  | asm => exact h.asm hadmits

/-- In every run whose steps meet the condition, control is not lost, and a task that leaves its
system call by `ERET` goes to EL0 with the registers, SP_EL0, ELR_EL1 and SPSR_EL1 of its `SVC`,
and the result in `x0`. -/
theorem call_returns_its_context {s : State} (hs : (trapMachine.restrict trapGuard).Reachable s) :
  s.loc ≠ .lost ∧
    (s.loc = .restoreLower restoreLower.length → ∃ call, s.trapped s.cur = some call ∧
      (react s .asm).loc = .user ∧
      (react s .asm).core.x = update call.ctx.x 0 call.result ∧
      (react s .asm).core.spEl0 = call.ctx.spEl0 ∧
      (react s .asm).core.elr = call.ctx.pc ∧
      (react s .asm).core.spsr = .pstate (userPstate call.ctx.flags)) := by
  obtain ⟨c, hcur, _, ⟨v, hcalls, hkernel⟩, hphase⟩ := inv_of_reachable hs
  refine ⟨fun hlost => ?_, fun hloc => ?_⟩
  · cases hphase with
    | running o hsp hres =>
      rw [hlost] at hres
      exact hres.elim
    | user o hloc | idle o hloc | dropping k o hloc | restoring k f t c₀ hloc
      | switching k p o on lr ln c₀ hloc => exact absurd (hlost.symm.trans hloc) (by simp)
  have hspEl0 := hkernel (by rw [hloc]; rfl)
  cases hphase with
  | running o hsp hres =>
    rw [hloc] at hres
    exact hres.elim
  | user o hloc' | idle o hloc' | dropping k o hloc' | switching k p o on lr ln c₀ hloc' =>
    exact absurd (hloc.symm.trans hloc') (by simp)
  | restoring k f t c₀ hloc' hk ht hsp hframe hx hcore hall =>
    obtain rfl : restoreLower.length = k := Loc.restoreLower.inj (hloc.symm.trans hloc')
    obtain ⟨_, hregs, helr, hspsr⟩ := restored hsp hframe hx
    have hdone : s.core = execs restoreLower c₀ := by
      rw [hcore, List.take_length]
    have heret : react s .asm =
        { s with loc := .user, irqMasked := false
                 trapped := update s.trapped s.cur none } := by
      have hstep : react s .asm = eretCall s := by
        simp only [react, stepAsm, hloc, asmStep, List.getElem?_length]
      have hret : eret s = { s with loc := .user, irqMasked := false } := by
        rw [eret, hdone, hspsr]
        rfl
      rw [hstep, eretCall, hret]
    rw [heret]
    refine ⟨t, by rw [cur_eq hcur]; exact ht, rfl, ?_, ?_, ?_, ?_⟩
    · exact (congrArg Core.x hdone).trans hregs
    · exact hspEl0.trans (hcalls c t ht).2.symm
    · exact (congrArg Core.elr hdone).trans helr
    · exact (congrArg Core.spsr hdone).trans hspsr

def bootState : State where
  sched := Sched.schedInit
    { tasks := fun _ => Sched.idleTask, current := none, uptime := 0, watchdogLimit := 0 } []
  core :=
    { x := fun _ => .num 0, sp := .ptr (.stack 0) 0, spEl0 := .num 0, elr := .num 0,
      spsr := .num 0, mem := fun _ => .num 0 }
  loc := .thread
  irqMasked := false
  trapped := fun _ => none

lemma bootState_init : trapMachine.init bootState := ⟨⟨_, _, rfl⟩, rfl, ⟨0, rfl⟩, rfl⟩

def userCtx (sp : Nat) : Ctx := ⟨fun i => .num i, .num sp, .num 4096, 0⟩

def spawnEvent (usp : Nat) : Event := .call (.spawnUser [] 0 4096 usp (-1) 1 4096)

def yieldEvents : List Event := .call (.yield ⟨0, 0, 0⟩) :: List.replicate 17 .asm

def enterEvents : List Event :=
  yieldEvents ++ .work ⟨fun _ => .num 0, 0, fun _ => .num 0, none, false⟩ :: List.replicate 4 .asm

/-- Two user tasks yield in system calls; the first one is switched back in, and goes up to
instruction `k` of its return path. -/
def returnEvents (usp₁ usp₂ k : Nat) : List Event :=
  [spawnEvent usp₁, spawnEvent usp₂] ++ enterEvents ++ .svc (userCtx usp₁) :: enterEvents ++
    .svc (userCtx usp₂) :: yieldEvents ++ yieldEvents ++ .finish :: List.replicate k .asm

/-- Two tasks with one SP_EL0. -/
theorem call_returns_its_context_shared : ∃ s, (trapMachine.restrict trapGuard).Reachable s ∧
    s.loc = .restoreLower restoreLower.length ∧
    ∃ call, s.trapped s.cur = some call ∧ (react s .asm).loc = .user ∧
      (react s .asm).core.x = update call.ctx.x 0 call.result := by
  have hboot : (trapMachine.restrict trapGuard).Reachable bootState :=
    Machine.reachable_of_init bootState_init
  have hreach := hboot.run (Machine.run_of_admitsAll _ (returnEvents 64 64 16)
    (by decide +kernel))
  obtain ⟨call, hcall, huser, hx, _⟩ := (call_returns_its_context hreach).2 (by decide +kernel)
  exact ⟨_, hreach, by decide +kernel, call, hcall, huser, hx⟩

/-- Two tasks with different stacks: the first one returns with the SP_EL0 of the
second. -/
theorem call_returns_with_other_stack :
  ∃ s, trapMachine.Reachable s ∧ s.loc = .restoreLower restoreLower.length ∧
    (s.trapped s.cur).map (fun call => call.ctx.spEl0) = some (.num 64) ∧
    (react s .asm).loc = .user ∧ (react s .asm).core.spEl0 = .num 128 := by
  have hboot := Machine.reachable_of_init bootState_init
  have hreach := hboot.run (Machine.run_of_admitsAll _ (returnEvents 64 128 16)
    (by decide +kernel))
  refine ⟨_, hreach, ?_, ?_, ?_, ?_⟩ <;> decide +kernel

end Aeos.Trap
