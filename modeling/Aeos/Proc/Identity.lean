/-
# Which process a task acts as

The link from a task to its process is the slot index in the process table, and a
FINISHED slot is reused at once while the entry of the process that ended there stays
until it is reaped.
-/

import Aeos.Proc.Memory

namespace Aeos.Proc

open Lib Mem Sched Function

def ownFds (k : Kernel) : Option Owner → Nat → Nat
  | some o => (k.procs o.pcb).fdTable
  | none => k.kernelFdTable

def withOwnFds (k : Kernel) (who : Option Owner) (fds : Nat → Nat) : Kernel :=
  match who with
  | some o => k.setProc o.pcb fun p => { p with fdTable := fds }
  | none => { k with kernelFdTable := fds }

def exitedProcs (k : Kernel) (who : Option Owner) (code : Int) : Nat → Pcb :=
  match who with
  | some o =>
    update k.procs o.pcb { k.procs o.pcb with exitCode := code, state := .zombie }
  | none => k.procs

/-- The process calls of the current task all concern the process `who`, or the
kernel's own tables if there is none. -/
structure ActsAs (k : Kernel) (who : Option Owner) : Prop where
  alive : ∀ o, who = some o → (k.procs o.pcb).state = .alive ∧ (k.procs o.pcb).pid = o.pid
  getpid : procGetpid k = (who.map Owner.pid).getD 0
  fdGet : ∀ fd, procFdGet k fd =
    if fd < 0 ∨ (procFdMax : Int) ≤ fd then 0 else ownFds k who fd.toNat
  fdAlloc : ∀ dev, procFdAlloc k dev =
    match (List.range procFdMax).find? fun i => ownFds k who i = 0 with
    | some fd => (some fd, withOwnFds k who (update (ownFds k who) fd dev))
    | none => (none, k)
  fdClose : ∀ fd, procFdClose k fd =
    if 0 ≤ fd ∧ fd < (procFdMax : Int) then
      withOwnFds k who (update (ownFds k who) fd.toNat 0)
    else k
  exit : ∀ code ticks, (procExit k code ticks).procs = exitedProcs k who code

lemma actsAs_of_found {k : Kernel} {who : Option Owner}
  (hfound : findCurrentProc k = who.map Owner.pcb)
  (halive : ∀ o, who = some o → (k.procs o.pcb).state = .alive ∧ (k.procs o.pcb).pid = o.pid) :
  ActsAs k who := by
  have hlookup : findByTask k (schedCurrentIndex k.sched) = who.map Owner.pcb := hfound
  have hfds : currentFds k = ownFds k who := by
    cases who <;> simp [currentFds, hfound, ownFds]
  have hset : ∀ fds, setCurrentFds k fds = withOwnFds k who fds := by
    intro fds
    cases who <;> simp [setCurrentFds, hfound, withOwnFds]
  refine ⟨halive, ?_, fun fd => ?_, fun dev => ?_, fun fd => ?_, fun code ticks => ?_⟩
  · cases who with
    | none => simp [procGetpid, hlookup]
    | some o => simp [procGetpid, hlookup, (halive o rfl).2]
  · rw [procFdGet, hfds]
  · cases hfind : (List.range procFdMax).find? fun i => decide (ownFds k who i = 0) with
    | none => simp [procFdAlloc, hfds, hfind]
    | some fd => simp [procFdAlloc, hfds, hset, hfind]
  · simp only [procFdClose, hfds, hset]
  cases who with
  | none => simp [procExit, hlookup, exitedProcs, Kernel.dispatch]
  | some o => simp [procExit, hlookup, exitedProcs, Kernel.dispatch, Kernel.setProc]

def FreshSlot (k : Kernel) : Prop :=
  ∀ slot, slotAlloc k.sched = some slot →
    ∀ p < maxProcs, (k.procs p).state ≠ .none → (k.procs p).taskIdx ≠ some slot

/-- Spawns are made only when the slot they would get is fresh. -/
def slotGuard (w : World) : Event → Prop
  | .spawn _ _ _ _ => FreshSlot w.kernel
  | .spawnUser _ _ _ _ => FreshSlot w.kernel
  | .spawnImage _ _ _ _ => FreshSlot w.kernel
  | _ => True

def ownerAfter (owner : Nat → Option Owner) : Outcome → Nat → Option Owner
  | .task slot => update owner slot none
  | .process slot pcb pid => update owner slot (some ⟨pcb, pid⟩)
  | _ => owner

lemma note_owner (w : World) (result : Kernel × Outcome) :
  (w.note result).owner = ownerAfter w.owner result.2 := by
  unfold World.note ownerAfter
  cases result.2 <;> rfl

structure Linked (k : Kernel) (owner : Nat → Option Owner) : Prop where
  runner : OneRunner k.sched.view
  pids : 0 < k.nextPid
  /-- A task created for a process has its live entry. -/
  owned : ∀ i < maxTasks, Live k.sched.view i → ∀ o, owner i = some o →
    o.pcb < maxProcs ∧ (k.procs o.pcb).state = .alive ∧
      (k.procs o.pcb).taskIdx = some i ∧ (k.procs o.pcb).pid = o.pid
  /-- An entry in use that names a task is the entry of that task's process. -/
  named : ∀ i < maxTasks, Live k.sched.view i → ∀ p < maxProcs,
    (k.procs p).state ≠ .none → (k.procs p).taskIdx = some i →
      owner i = some ⟨p, (k.procs p).pid⟩

namespace Linked

variable {c : Statics} {k : Kernel} {owner : Nat → Option Owner} {k' : Kernel} (h : Linked k owner)
include h

lemma of_live (hrunner : OneRunner k'.sched.view) (hpids : 0 < k'.nextPid)
  (hlive : ∀ i, Live k'.sched.view i → Live k.sched.view i)
  (hprocs : ∀ i < maxTasks, Live k'.sched.view i → ∀ p,
    (k.procs p).taskIdx = some i → (k.procs p).state = .alive → SamePcb (k.procs p) (k'.procs p))
  (hback : ∀ i < maxTasks, Live k'.sched.view i → ∀ p, (k'.procs p).state ≠ .none →
    (k'.procs p).taskIdx = some i → SamePcb (k.procs p) (k'.procs p)) : Linked k' owner := by
  refine ⟨hrunner, hpids, fun i hi hli o ho => ?_, fun i hi hli p hp hstate htask => ?_⟩
  · obtain ⟨hlt, halive, htask, hpid⟩ := h.owned i hi (hlive i hli) o ho
    obtain ⟨hstate, hpid', htask', _⟩ := hprocs i hi hli o.pcb htask halive
    exact ⟨hlt, hstate.trans halive, htask'.trans htask, hpid'.trans hpid⟩
  obtain ⟨hstate', hpid', htask', _⟩ := hback i hi hli p hstate htask
  rw [hpid']
  exact h.named i hi (hlive i hli) p hp (hstate' ▸ hstate) (htask'.symm.trans htask)

lemma ended {cur : Nat} (hcur : k.sched.current = some cur) (hrunner : OneRunner k'.sched.view)
  (hpids : 0 < k'.nextPid) (hlive : ∀ i, Live k'.sched.view i → i ≠ cur ∧ Live k.sched.view i)
  (hended : Ended k k') : Linked k' owner := by
  rcases hended with hsame | ⟨q, hfound, hothers, hzombie⟩
  · refine h.of_live hrunner hpids (fun i hli => (hlive i hli).2) ?_ ?_ <;>
      exact fun _ _ _ p _ _ => by rw [hsame]; exact SamePcb.refl _
  have hq := (findByTask_some hfound).2.2
  have hcurrent : schedCurrentIndex k.sched = some cur := hcur
  rw [hcurrent] at hq
  have hkept : ∀ i, Live k'.sched.view i → ∀ p, (k.procs p).taskIdx = some i →
      SamePcb (k.procs p) (k'.procs p) := by
    intro i hli p htask
    have hpq : p ≠ q := by
      rintro rfl
      exact (hlive i hli).1 (Option.some.inj (htask.symm.trans hq))
    rw [hothers p hpq]
    exact SamePcb.refl _
  refine h.of_live hrunner hpids (fun i hli => (hlive i hli).2)
    (fun i _ hli p htask _ => hkept i hli p htask) fun i _ hli p _ htask => ?_
  refine hkept i hli p ?_
  by_cases hpq : p = q
  · subst hpq
    exact (hzombie.2.2.1).symm.trans htask
  rw [← hothers p hpq]
  exact htask

lemma task {slot : Nat} (hfresh : FreshSlot k) (hrunner : OneRunner k'.sched.view)
  (hpids : 0 < k'.nextPid) (halloc : slotAlloc k.sched = some slot)
  (hview : k'.sched.view = k.sched.view.set slot .ready) (hprocs : k'.procs = k.procs) :
  Linked k' (update owner slot none) := by
  refine ⟨hrunner, hpids, fun i hi hli o ho => ?_, fun i hi hli p hp hstate htask => ?_⟩
  · have hne : i ≠ slot := by
      rintro rfl
      simp at ho
    rw [update_of_ne hne] at ho
    rw [hprocs]
    exact h.owned i hi (live_of_spawned hview hne hli) o ho
  rw [hprocs] at hstate htask ⊢
  have hne : i ≠ slot := by
    rintro rfl
    exact hfresh i halloc p hp hstate htask
  rw [update_of_ne hne]
  exact h.named i hi (live_of_spawned hview hne hli) p hp hstate htask

lemma process {slot pcb : Nat} (hfresh : FreshSlot k) (hrunner : OneRunner k'.sched.view)
  (hpids : 0 < k'.nextPid) (halloc : slotAlloc k.sched = some slot)
  (hfree : freeProc k = some pcb) (hview : k'.sched.view = k.sched.view.set slot .ready)
  (hpcb : (k'.procs pcb).state = .alive ∧ (k'.procs pcb).pid = k.nextPid ∧
    (k'.procs pcb).taskIdx = some slot) (hprocs : ∀ p, p ≠ pcb → k'.procs p = k.procs p) :
  Linked k' (update owner slot (some ⟨pcb, k.nextPid⟩)) := by
  obtain ⟨hlt, hnone⟩ := freeProc_some hfree
  obtain ⟨halive, hpid, htaskIdx⟩ := hpcb
  refine ⟨hrunner, hpids, fun i hi hli o ho => ?_, fun i hi hli p hp hstate htask => ?_⟩
  · by_cases hne : i = slot
    · subst hne
      rw [update_self] at ho
      obtain rfl := Option.some.inj ho
      exact ⟨hlt, halive, htaskIdx, hpid⟩
    rw [update_of_ne hne] at ho
    obtain ⟨hlt', halive', hrest⟩ := h.owned i hi (live_of_spawned hview hne hli) o ho
    have hother : o.pcb ≠ pcb := by
      intro heq
      rw [heq, hnone] at halive'
      cases halive'
    rw [hprocs _ hother]
    exact ⟨hlt', halive', hrest⟩
  by_cases hppcb : p = pcb
  · subst hppcb
    obtain rfl : slot = i := Option.some.inj (htaskIdx.symm.trans htask)
    rw [update_self, hpid]
  rw [hprocs p hppcb] at hstate htask ⊢
  have hne : i ≠ slot := by
    rintro rfl
    exact hfresh i halloc p hp hstate htask
  rw [update_of_ne hne]
  exact h.named i hi (live_of_spawned hview hne hli) p hp hstate htask

lemma move {o : Outcome} (hmove : Move c k k' o) (hpids : 0 < k'.nextPid)
  (hfresh : (∃ slot, o = .task slot) ∨ (∃ slot pcb pid, o = .process slot pcb pid) →
    FreshSlot k) : Linked k' (ownerAfter owner o) := by
  have hrunner := hmove.oneRunner h.runner
  cases hmove with
  | quiet hview _ hprocs =>
    refine h.of_live hrunner hpids (fun i hli => by rwa [hview] at hli) ?_ ?_ <;>
      exact fun _ _ _ p _ _ => hprocs p
  | task slot _ halloc hview _ hprocs =>
    exact h.task (hfresh (.inl ⟨slot, rfl⟩)) hrunner hpids halloc hview hprocs
  | process slot pcb as chunk _ halloc hfree _ hview _ hpcb hprocs =>
    exact h.process (hfresh (.inr ⟨slot, pcb, _, rfl⟩)) hrunner hpids halloc hfree hview
      ⟨hpcb.1, hpcb.2.1, hpcb.2.2.1⟩ hprocs
  | failed hsched hprocs =>
    refine h.of_live hrunner hpids (fun i hli => by rwa [hsched] at hli) ?_ ?_ <;>
      exact fun _ _ _ p _ _ => by rw [hprocs]; exact SamePcb.refl _
  | switched cur next hcur hrun hnext hview _ hprocs =>
    have hlive : ∀ i, Live k'.sched.view i → Live k.sched.view i := by
      intro i hli
      rw [hview] at hli
      exact live_of_handed (h.runner.lt hcur) hrun hnext hli
    refine h.of_live hrunner hpids hlive ?_ ?_ <;>
      exact fun _ _ _ p _ _ => by rw [hprocs]; exact SamePcb.refl _
  | retired cur next hcur hrun hnext hview _ hended =>
    refine h.ended hcur hrunner hpids (fun i hli => ?_) hended
    rwa [hview, live_handTo (View.next_some (h.runner.lt hcur) hnext).2, live_set_finished] at hli
  | parked cur hcur _ _ hview _ hended =>
    refine h.ended hcur hrunner hpids (fun i hli => ?_) hended
    rwa [hview, live_set_finished] at hli
  | reaped pid q _ hfound hzombie hview _ hprocs hpcb =>
    have hother : ∀ p, (k'.procs p).state ≠ .none → p ≠ q := by
      rintro p hp rfl
      exact hp hpcb
    have halive : ∀ p, (k.procs p).state = .alive → p ≠ q := by
      rintro p hp rfl
      rw [hp] at hzombie
      cases hzombie
    exact h.of_live hrunner hpids (fun i hli => by rwa [hview] at hli)
      (fun _ _ _ p _ hp => by rw [hprocs p (halive p hp)]; exact SamePcb.refl _)
      (fun _ _ _ p hp _ => by rw [hprocs p (hother p hp)]; exact SamePcb.refl _)

end Linked

lemma freshSlot_of_created {c : Statics} {w : World} {e : Event} (hguard : slotGuard w e)
  (hcreated : (∃ slot, (kernelReact c w.kernel e).2 = .task slot) ∨
    ∃ slot pcb pid, (kernelReact c w.kernel e).2 = .process slot pcb pid) : FreshSlot w.kernel := by
  cases e with
  | spawn | spawnUser | spawnImage => exact hguard
  | wait pid ticks =>
    exfalso
    have hwait : (kernelReact c w.kernel (.wait pid ticks)).2 =
      waitOutcome (procWait w.kernel pid ticks).1 := rfl
    rw [hwait] at hcreated
    generalize (procWait w.kernel pid ticks).1 = r at hcreated
    cases r <;> simp [waitOutcome] at hcreated
  | yield | exit | procExit | fdAlloc | fdClose | tick | watchdogSet =>
    simp [kernelReact] at hcreated

lemma linked_of_reachable {c : Statics} {w : World}
  (hw : ((machine c).restrict slotGuard).Reachable w) : Linked w.kernel w.owner := by
  refine hw.invariant (fun w => Linked w.kernel w.owner) ?_ ?_
  · rintro w ⟨hboot, howner, _, _⟩
    obtain ⟨before, mainName, hsched⟩ := hboot.sched
    refine ⟨?_, by rw [hboot.nextPid]; decide, ?_, fun _ _ _ p _ hp => absurd (hboot.procs p) hp⟩
    · rw [hsched]
      exact oneRunner_schedInit before mainName
    · simp [howner]
  rintro w e h ⟨hadmits, hguard⟩
  have hmove := kernelReact_move (c := c) (by have := h.pids; omega) e hadmits
  change Linked (w.note (kernelReact c w.kernel e)).kernel (w.note (kernelReact c w.kernel e)).owner
  rw [note_kernel, note_owner]
  exact h.move hmove (h.pids.trans_le (nextPid_le c w.kernel e)) (freshSlot_of_created hguard)

lemma Linked.findCurrentProc_eq {k : Kernel} {owner : Nat → Option Owner} (h : Linked k owner)
  {cur : Nat} (hcur : k.sched.current = some cur) (hrun : k.sched.view.st cur = .running) :
  findCurrentProc k = (owner cur).map Owner.pcb := by
  have hlt := h.runner.lt hcur
  have hlive : Live k.sched.view cur := .inr hrun
  have hindex : schedCurrentIndex k.sched = some cur := hcur
  cases hfound : findCurrentProc k with
  | some p =>
    obtain ⟨hp, hstate, htask⟩ := findByTask_some hfound
    rw [h.named cur hlt hlive p hp hstate (htask.trans hindex)]
    rfl
  | none =>
    cases howner : owner cur with
    | none => rfl
    | some o =>
      obtain ⟨hp, halive, htask, _⟩ := h.owned cur hlt hlive o howner
      have hnot := List.find?_eq_none.mp hfound o.pcb (List.mem_range.mpr hp)
      rw [hindex] at hnot
      simp [halive, htask] at hnot

/-- Where no spawn lands on a slot that an entry in use still names, the calls of a running task
concern the process it was created for. -/
theorem task_acts_as_its_process {c : Statics} {w : World}
  (hw : ((machine c).restrict slotGuard).Reachable w) {cur : Nat}
  (hcur : w.kernel.sched.current = some cur)
  (hrun : (w.kernel.sched.tasks cur).state = .running) :
  ActsAs w.kernel (w.owner cur) := by
  have hlinked := linked_of_reachable hw
  refine actsAs_of_found (hlinked.findCurrentProc_eq hcur hrun) fun o ho => ?_
  obtain ⟨_, halive, _, hpid⟩ := hlinked.owned cur (hlinked.runner.lt hcur) (.inr hrun) o ho
  exact ⟨halive, hpid⟩

theorem task_acts_as_its_process_first : ∃ w,
  ((machine sampleStatics).restrict slotGuard).Reachable w ∧
    w.kernel.sched.current = some 1 ∧ ActsAs w.kernel (some ⟨0, 1⟩) := by
  have hspawned :
      ((machine sampleStatics).restrict slotGuard).Reachable (firstWorld firstSpace.2) := by
    have hinit : ((machine sampleStatics).restrict slotGuard).init sampleWorld := sampleWorld_init
    rw [← step_firstSpawn]
    exact (Machine.reachable_of_init hinit).step (e := firstSpawn)
      ⟨⟨0, rfl, rfl⟩, fun _ _ p _ hp => absurd (boot_sampleKernel.procs p) hp⟩
  have hw := hspawned.step (e := Event.yield ⟨0, 0, 0⟩) ⟨⟨0, rfl, rfl⟩, trivial⟩
  exact ⟨_, hw, rfl, task_acts_as_its_process hw (by rfl : _ = some 1) rfl⟩

def slotReuse : List Event :=
  [.yield ⟨0, 0, 0⟩, .procExit 0 0, .spawn [] 1 1 256, .yield ⟨0, 0, 0⟩]

def reusedWorld : World := slotReuse.foldl (machine sampleStatics).step (firstWorld firstSpace.2)

/-- The thread acts as the dead process. -/
theorem thread_acts_as_dead_process : ∃ w, (machine sampleStatics).Reachable w ∧
  w.kernel.sched.current = some 1 ∧ (w.kernel.sched.tasks 1).state = .running ∧
  w.owner 1 = none ∧ procGetpid w.kernel = 1 := by
  have hcur : reusedWorld.kernel.sched.current = some 1 := by decide +kernel
  have hstate : (reusedWorld.kernel.sched.tasks 1).state = .running := by decide +kernel
  have howner : reusedWorld.owner 1 = none := by decide +kernel
  have hpid : procGetpid reusedWorld.kernel = 1 := by decide +kernel
  exact ⟨_, ⟨_, _, sampleWorld_init, run_after_first slotReuse (by decide +kernel)⟩, hcur, hstate,
    howner, hpid⟩

end Aeos.Proc
