/-
# An ALIVE process has a task

A process leaves the state ALIVE in `proc_exit` only.
-/

import Aeos.Proc.Spaces

namespace Aeos.Proc

open Lib Mem Sched

/-! ## Events that end the current task -/

def condemned (k : Kernel) : Bool :=
  match k.sched.current with
  | none => false
  | some cur => (k.sched.tasks cur).killPending

def endsTask (k : Kernel) : Event → Bool
  | .exit _ => true
  | .procExit _ _ => true
  | .yield _ => condemned k
  | .wait pid _ =>
    condemned k && match findPid k pid with
      | none => false
      | some i => decide ((k.procs i).state ≠ .zombie)
  | _ => false

def Event.isProcExit : Event → Bool
  | .procExit _ _ => true
  | _ => false

section
variable {c : Statics} {k : Kernel} {cur i : Nat} {s : Sched.State}

lemma condemned_eq (hcur : k.sched.current = some cur) :
  condemned k = (k.sched.tasks cur).killPending := by
  unfold condemned
  rw [hcur]

lemma live_schedExit (hlt : cur < maxTasks) (hcur : s.current = some cur) (ticks i : Nat) :
  Live (schedExit s ticks).1.view i ↔ i ≠ cur ∧ Live s.view i := by
  rcases schedExit_cases ticks hcur with ⟨next, hnext, hview, -⟩ | ⟨-, hview, -⟩
  · rw [hview, live_handTo (View.next_some hlt hnext).2, live_set_finished]
  · rw [hview, live_set_finished]

lemma live_schedYield (hlt : cur < maxTasks) (hcur : s.current = some cur)
  (hspared : (s.tasks cur).killPending = false) (ticks : YieldTicks) (hi : Live s.view i) :
  Live (schedYield s ticks).1.view i := by
  have heffect := schedYield_effect ticks hcur
  have hno : ∀ c', s.current = some c' → ¬ Retires s (.yield ticks) c' := by
    rintro c' hc' (⟨_, heq⟩ | ⟨-, hkill⟩)
    · cases heq
    cases hcur.symm.trans hc'
    rw [hspared] at hkill
    cases hkill
  generalize (schedYield s ticks).1.view = v at heffect ⊢
  generalize (schedYield s ticks).2 = d at heffect
  cases heffect with
  | quiet => exact hi
  | spawned _ hinto => exact hinto.elim
  | handed c' next hc' hnext =>
    have hready := (View.next_some (by cases hcur.symm.trans hc'; exact hlt) hnext).2
    have hready' : (s.view.set c' .ready).st next = .ready := by
      by_cases hn : next = c'
      · rw [hn, View.set_st_same]
      · rwa [View.set_st_of_ne _ _ hn]
    rw [live_handTo hready', live_set_ready]
    exact .inr hi
  | retired c' _ hwhy hc' => exact absurd hwhy (hno c' hc')
  | parked c' hwhy hc' => exact absurd hwhy (hno c' hc')

lemma live_spawnSlot {valid : Bool} {fill : Task → Task} (hfill : ∀ t, (fill t).state = .ready)
  (hi : Live s.view i) : Live (spawnSlot s valid fill).2.view i := by
  rcases spawnSlot_cases s valid fill with heq | ⟨slot, -, heq⟩
  · rwa [heq]
  rw [heq, view_setTask, hfill, live_set_ready]
  exact .inr hi

lemma reap_view (k : Kernel) (i : Nat) : (reap k i).sched.view = k.sched.view := by
  unfold reap
  cases (k.procs i).taskIdx with
  | none => rfl
  | some task => exact (schedTaskSetPid_view k.sched task (-1)).1

lemma live_of_not_endsTask (hrunner : OneRunner k.sched.view) {e : Event}
  (hadmits : kernelAdmits k e) (hnot : endsTask k e = false) (hi : Live k.sched.view i) :
  Live (kernelReact c k e).1.sched.view i := by
  have hyield : Executing k.sched → condemned k = false → ∀ ticks,
      Live (schedYield k.sched ticks).1.view i := by
    rintro ⟨cur, hcur, -⟩ hspared ticks
    rw [condemned_eq hcur] at hspared
    exact live_schedYield (hrunner.lt hcur) hcur hspared ticks hi
  cases e with
  | spawn name entry stack stackLen => exact live_spawnSlot (fun _ => rfl) hi
  | spawnUser name entry kstack kstackLen =>
    simp only [kernelReact, schedSpawnUser]
    split_ifs
    · exact hi
    · exact live_spawnSlot (fun _ => rfl) hi
  | spawnImage name image size entryOff =>
    dsimp only [kernelReact]
    have hcases := procSpawnImage_cases c k name image size entryOff
    generalize procSpawnImage c k name image size entryOff = r at hcases ⊢
    cases hcases with
    | refused | noMemory | noTask => exact hi
    | created name pcb slot as chunk mm =>
      dsimp only [Kernel.withProcess]
      rw [view_setTask]
      exact live_set_ready.mpr (.inr hi)
  | yield ticks => exact hyield hadmits hnot ticks
  | exit | procExit => cases hnot
  | wait pid ticks =>
    simp only [kernelReact, procWait]
    cases hfound : findPid k pid with
    | none => exact hi
    | some j =>
      dsimp only
      split_ifs with hzombie
      · rwa [reap_view]
      apply hyield hadmits
      simpa [endsTask, hfound, hzombie] using hnot
  | fdAlloc dev =>
    simp only [kernelReact, procFdAlloc]
    split
    · rwa [(setCurrentFds_sched k _).1]
    · exact hi
  | fdClose fd =>
    simp only [kernelReact, procFdClose]
    split_ifs
    · rwa [(setCurrentFds_sched k _).1]
    · exact hi
  | tick =>
    change Live (schedOnTick k.sched).view i
    rwa [view_schedOnTick]
  | watchdogSet limit => exact hi

lemma react_of_endsTask (hexec : Executing k.sched) {e : Event} (hends : endsTask k e = true) :
  (∃ ticks, (kernelReact c k e).1.sched = (schedExit k.sched ticks).1) ∧
    (e.isProcExit = false → (kernelReact c k e).1.procs = k.procs) := by
  obtain ⟨cur, hcur, -⟩ := hexec
  have hyield : condemned k = true → ∀ ticks,
      schedYield k.sched ticks = schedExit k.sched ticks.handoff := by
    intro hkill ticks
    rw [condemned_eq hcur] at hkill
    exact schedYield_of_killPending ticks hcur hkill
  cases e with
  | exit ticks => exact ⟨⟨ticks, rfl⟩, fun _ => rfl⟩
  | procExit code ticks =>
    refine ⟨⟨ticks, ?_⟩, fun h => by cases h⟩
    simp only [kernelReact, procExit]
    cases findByTask k (schedCurrentIndex k.sched) <;> rfl
  | yield ticks =>
    refine ⟨⟨ticks.handoff, ?_⟩, fun _ => rfl⟩
    change (schedYield k.sched ticks).1 = _
    rw [hyield hends]
  | wait pid ticks =>
    cases hfound : findPid k pid with
    | none => simp [endsTask, hfound] at hends
    | some i =>
      simp only [endsTask, hfound, Bool.and_eq_true, decide_eq_true_eq] at hends
      refine ⟨⟨ticks.handoff, ?_⟩, fun _ => ?_⟩
      · simp only [kernelReact, procWait, hfound, if_neg hends.2]
        change (schedYield k.sched ticks).1 = _
        rw [hyield hends.1]
      simp only [kernelReact, procWait, hfound, if_neg hends.2]
      rfl
  | spawn | spawnUser | spawnImage | fdAlloc | fdClose | tick | watchdogSet => cases hends

end

/-- Every process that is ALIVE has its own task, READY or RUNNING, in the slot that its
entry names. -/
def AliveHasTask (w : World) : Prop :=
  ∀ p < maxProcs, (w.kernel.procs p).state = .alive → ∃ slot < maxTasks,
    (w.kernel.procs p).taskIdx = some slot ∧
      w.owner slot = some ⟨p, (w.kernel.procs p).pid⟩ ∧ Live w.kernel.sched.view slot

/-- When the event ends the task of an ALIVE process, it is a `proc_exit` that finds its entry
first. -/
def EndsCleanly (w : World) (e : Event) : Prop :=
  endsTask w.kernel e = true → ∀ p < maxProcs, (w.kernel.procs p).state = .alive →
    (w.kernel.procs p).taskIdx = w.kernel.sched.current →
      e.isProcExit = true ∧ ∀ q < p, (w.kernel.procs q).state ≠ .none →
        (w.kernel.procs q).taskIdx ≠ w.kernel.sched.current

section
variable {c : Statics} {w : World} {k' : Kernel} {k : Kernel}

lemma alive_of_ended (hended : Ended k k') {p : Nat}
  (halive : (k'.procs p).state = .alive) : k'.procs p = k.procs p := by
  rcases hended with heq | ⟨i, -, hother, hstate, -⟩
  · rw [heq]
  by_cases hp : p = i
  · rw [hp, hstate] at halive
    cases halive
  · exact hother p hp

/-- Step lemma: the property is kept if the tasks of the entries that stay ALIVE can
still run. -/
lemma AliveHasTask.step (h : AliveHasTask w) {o : Outcome} (hmove : Move c w.kernel k' o)
  (hlive : ∀ p < maxProcs, ∀ slot, (w.kernel.procs p).state = .alive →
    (w.kernel.procs p).taskIdx = some slot → (k'.procs p).state = .alive →
      Live w.kernel.sched.view slot → Live k'.sched.view slot) : AliveHasTask (w.note (k', o)) := by
  -- Entries that are ALIVE on both sides, in slots whose owner is unchanged.
  have hkeep : ∀ p < maxProcs, (k'.procs p).state = .alive →
      SamePcb (w.kernel.procs p) (k'.procs p) →
      (∀ slot, Live w.kernel.sched.view slot → (w.note (k', o)).owner slot = w.owner slot) →
      ∃ slot < maxTasks, (k'.procs p).taskIdx = some slot ∧
        (w.note (k', o)).owner slot = some ⟨p, (k'.procs p).pid⟩ ∧ Live k'.sched.view slot := by
    rintro p hp halive ⟨hstate, hpid, htask, -⟩ howner
    rw [hstate] at halive
    obtain ⟨slot, hlt, hslot, hown, hcan⟩ := h p hp halive
    refine ⟨slot, hlt, htask.trans hslot, ?_,
      hlive p hp slot halive hslot (hstate.trans halive) hcan⟩
    rw [howner slot hcan, hown, hpid]
  -- A slot that is handed out could not run.
  have hfree : ∀ slot, slotAlloc w.kernel.sched = some slot → ∀ i,
      Live w.kernel.sched.view i → i ≠ slot := by
    rintro slot halloc i hi rfl
    rcases hi with hi | hi <;> rcases (slotAlloc_some halloc).2 with hst | hst <;>
      exact absurd (hi.symm.trans hst) (by decide)
  intro p hp halive
  rw [note_kernel] at halive ⊢
  cases hmove with
  | quiet _ _ hprocs => exact hkeep p hp halive (hprocs p) fun _ _ => rfl
  | failed _ hprocs | switched _ _ _ _ _ _ _ hprocs =>
    apply hkeep p hp halive _ fun _ _ => rfl
    have heq := congrFun hprocs p
    rw [heq]
    exact SamePcb.refl _
  | retired _ _ _ _ _ _ _ hended | parked _ _ _ _ _ _ hended =>
    apply hkeep p hp halive _ fun _ _ => rfl
    rw [alive_of_ended hended halive]
    exact SamePcb.refl _
  | task slot _ halloc _ _ hprocs =>
    apply hkeep p hp halive
    · have heq : k'.procs p = w.kernel.procs p := congrFun hprocs p
      rw [heq]
      exact SamePcb.refl _
    intro i hi
    exact Function.update_of_ne (hfree slot halloc i hi) _ _
  | process slot pcb as chunk _ halloc _ _ hview _ hpcb hprocs =>
    by_cases hpp : p = pcb
    · subst hpp
      refine ⟨slot, (slotAlloc_some halloc).1, hpcb.2.2.1, ?_, ?_⟩
      · rw [show (k', Outcome.process slot p w.kernel.nextPid).1.procs p = k'.procs p from rfl,
          hpcb.2.1]
        exact Function.update_self slot _ _
      rw [hview, live_set_ready]
      exact .inl rfl
    apply hkeep p hp halive
    · rw [hprocs p hpp]
      exact SamePcb.refl _
    intro i hi
    exact Function.update_of_ne (hfree slot halloc i hi) _ _
  | reaped pid i _ _ _ _ _ hprocs hpcb =>
    have hpi : p ≠ i := by
      rintro rfl
      exact absurd (hpcb.symm.trans halive) (by decide)
    apply hkeep p hp halive _ fun _ _ => rfl
    rw [hprocs p hpi]
    exact SamePcb.refl _

lemma findByTask_first {task : Option Nat} {p : Nat} (hp : p < maxProcs)
  (hstate : (k.procs p).state ≠ .none) (htask : (k.procs p).taskIdx = task) :
  ∃ i ≤ p, findByTask k task = some i ∧
    ((∀ q < p, (k.procs q).state ≠ .none → (k.procs q).taskIdx ≠ task) ↔ i = p) := by
  cases hfound : findByTask k task with
  | none =>
    have hnone := List.find?_eq_none.mp hfound p (List.mem_range.mpr hp)
    simp [hstate, htask] at hnone
  | some i =>
    obtain ⟨hi, histate, hitask⟩ := findByTask_some hfound
    have hbefore : ∀ q < i, ¬ ((k.procs q).state ≠ .none ∧ (k.procs q).taskIdx = task) := by
      rintro q hq ⟨hqstate, hqtask⟩
      have hfirst := (List.find?_range_eq_some.mp hfound).2.2 q hq
      simp [hqstate, hqtask] at hfirst
    have hle : i ≤ p := by
      by_contra hlt
      exact hbefore p (Nat.not_le.mp hlt) ⟨hstate, htask⟩
    refine ⟨i, hle, rfl, fun h => ?_, ?_⟩
    · by_contra hne
      exact h i (Nat.lt_of_le_of_ne hle hne) histate hitask
    rintro rfl q hq hqstate hqtask
    exact hbefore q hq ⟨hqstate, hqtask⟩

lemma procExit_procs {i : Nat}
  (hfound : findByTask k k.sched.current = some i) (code : Int) (ticks : Nat) :
  ((procExit k code ticks).procs i).state = .zombie ∧
    ∀ j, j ≠ i → (procExit k code ticks).procs j = k.procs j := by
  have hfound' : findByTask k (schedCurrentIndex k.sched) = some i := hfound
  simp only [procExit, hfound']
  refine ⟨?_, fun j hj => ?_⟩
  · simp [Kernel.dispatch, Kernel.setProc]
  · simp [Kernel.dispatch, Kernel.setProc, hj]

lemma AliveHasTask.step_clean (h : AliveHasTask w) (hkept : SpacesKept w) {e : Event}
  (hadmits : kernelAdmits w.kernel e) (hclean : EndsCleanly w e) :
  AliveHasTask ((machine c).step w e) := by
  have hmove := kernelReact_move (c := c) (by have := hkept.pids; omega) e hadmits
  apply h.step hmove
  intro p hp slot halive htask halive' hcan
  by_cases hends : endsTask w.kernel e = true
  · have hexec : Executing w.kernel.sched := by
      cases e with
      | tick => cases hends
      | _ => exact hadmits
    obtain ⟨cur, hcur, -⟩ := id hexec
    obtain ⟨⟨ticks, hsched⟩, -⟩ := react_of_endsTask (c := c) hexec hends
    rw [hsched, live_schedExit (hkept.spaces.runner.lt hcur) hcur]
    refine ⟨?_, hcan⟩
    -- The entry of the task that ends becomes a zombie.
    rintro rfl
    have hsame := htask.trans hcur.symm
    obtain ⟨hexit, hfirst⟩ := hclean hends p hp halive hsame
    obtain ⟨i, -, hfound, hiff⟩ := findByTask_first hp (by rw [halive]; simp) hsame
    obtain rfl := hiff.mp hfirst
    cases e with
    | procExit code ticks =>
      have hzombie := (procExit_procs hfound code ticks).1
      exact absurd (hzombie.symm.trans halive') (by decide)
    | _ => cases hexit
  · exact live_of_not_endsTask hkept.spaces.runner hadmits (by simpa using hends) hcan

lemma AliveHasTask.step_unclean (hkept : SpacesKept w) {e : Event}
  (hadmits : kernelAdmits w.kernel e) (hclean : ¬ EndsCleanly w e) :
  ¬ AliveHasTask ((machine c).step w e) := by
  simp only [EndsCleanly, Classical.not_imp, not_forall] at hclean
  obtain ⟨hends, p, hp, halive, hsame, hunclean⟩ := hclean
  have hexec : Executing w.kernel.sched := by
    cases e with
    | tick => cases hends
    | _ => exact hadmits
  obtain ⟨cur, hcur, -⟩ := id hexec
  obtain ⟨⟨ticks, hsched⟩, hprocs⟩ := react_of_endsTask (c := c) hexec hends
  have hstays : (kernelReact c w.kernel e).1.procs p = w.kernel.procs p := by
    by_cases hexit : e.isProcExit = true
    · obtain ⟨i, -, hfound, hiff⟩ := findByTask_first hp (by rw [halive]; simp) hsame
      have hpi : p ≠ i := by
        rintro rfl
        exact hunclean ⟨hexit, hiff.mpr rfl⟩
      cases e with
      | procExit code ticks => exact (procExit_procs hfound code ticks).2 p hpi
      | _ => cases hexit
    · rw [hprocs (by simpa using hexit)]
  intro h
  have hkernel : ((machine c).step w e).kernel = (kernelReact c w.kernel e).1 := note_kernel w _
  obtain ⟨slot, -, hslot, -, hcan⟩ := h p hp (by rw [hkernel, hstays, halive])
  rw [hkernel, hstays] at hslot
  obtain rfl : slot = cur := Option.some.inj (hslot.symm.trans (hsame.trans hcur))
  rw [hkernel, hsched, live_schedExit (hkept.spaces.runner.lt hcur) hcur] at hcan
  exact hcan.1 rfl

end

/-- In every run after boot, every ALIVE process has its own task, able to run, throughout, if and
only if every step that ends the task of an ALIVE process is a `proc_exit` that finds its entry.
-/
theorem alive_process_has_task {c : Statics} {w t : World} {es : List Event}
  (hinit : (machine c).init w) (hrun : (machine c).Run w es t) :
  (machine c).Throughout AliveHasTask w es ↔ ((machine c).restrict EndsCleanly).Run w es t := by
  refine hrun.throughout_iff (fun w (hw : AliveHasTask w ∧ SpacesKept w) => hw.1) ?_ ?_ ?_
  · rintro w e ⟨h, hkept⟩ hadmits hclean
    exact ⟨h.step_clean hkept hadmits hclean, hkept.step hadmits⟩
  · rintro w e ⟨-, hkept⟩ hadmits hclean
    exact AliveHasTask.step_unclean hkept hadmits hclean
  refine ⟨fun p _ halive => ?_, spacesKept_of_reachable (Machine.reachable_of_init hinit)⟩
  rw [hinit.1.procs p] at halive
  cases halive

theorem alive_process_has_task_first :
  (machine sampleStatics).Throughout AliveHasTask sampleWorld [firstSpawn] := by
  have hadmits : (machine sampleStatics).enabled sampleWorld firstSpawn := ⟨0, rfl, rfl⟩
  apply (alive_process_has_task sampleWorld_init (.cons hadmits (.nil _))).mpr
  exact .cons ⟨hadmits, fun hends => by cases hends⟩ (.nil _)

def starvedEvents : List Event := [.watchdogSet 1, .yield ⟨0, 0, 0⟩, .tick, .yield ⟨0, 0, 0⟩]

def starvedWorld : World :=
  starvedEvents.foldl (machine sampleStatics).step (firstWorld firstSpace.2)

/-- The watchdog ended the task; its process is ALIVE. -/
theorem alive_process_without_task : ∃ t,
  (machine sampleStatics).Run sampleWorld (firstSpawn :: starvedEvents) t ∧
    (t.kernel.procs 0).state = .alive ∧ (t.kernel.procs 0).taskIdx = some 1 ∧
    (t.kernel.sched.tasks 1).state = .finished ∧ ¬ AliveHasTask t := by
  have halive : (starvedWorld.kernel.procs 0).state = .alive := by decide +kernel
  have htask : (starvedWorld.kernel.procs 0).taskIdx = some 1 := by decide +kernel
  have hdone : (starvedWorld.kernel.sched.tasks 1).state = .finished := by decide +kernel
  refine ⟨_, run_after_first starvedEvents (by decide +kernel), halive, htask, hdone, fun h => ?_⟩
  obtain ⟨slot, -, hslot, -, hcan⟩ := h 0 (by decide) halive
  obtain rfl : slot = 1 := Option.some.inj (hslot.symm.trans htask)
  rcases hcan with hcan | hcan <;> exact absurd (hcan.symm.trans hdone) (by decide)

end Aeos.Proc
