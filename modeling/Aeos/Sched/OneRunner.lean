/-
# Exactly one task runs

The CPU is never lost and never shared: the current slot is valid, it is the only slot
that can be RUNNING, and the scheduler is without a RUNNING slot only after the last
runnable task ended.
-/

import Aeos.Sched.Moves

namespace Aeos.Sched

open Lib Option

def Parked (v : View) (c : Nat) : Prop :=
  v.st c = .finished ∧ ∀ i < maxTasks, v.st i ≠ .ready

def OneRunner (v : View) : Prop :=
  ∃ c, v.cur = some c ∧ c < maxTasks ∧ (∀ i < maxTasks, v.st i = .running → i = c) ∧
    (v.st c = .running ∨ Parked v c)

variable {s : State} {e : Event} {slot n c i : Nat} {v : View} {state : TaskState}
  {d : Option Dispatch}

lemma executing_of_spawnsInto (hadmits : admits s e) (hinto : SpawnsInto s e slot) :
  Executing s := by
  cases e with
  | spawn | spawnUser => exact hadmits
  | yield | exit | tick | watchdogSet => exact hinto.elim

lemma oneRunner_handTo (hn : n < maxTasks) (halone : ∀ i < maxTasks, v.st i = .running → i = n) :
  OneRunner (v.handTo n) := by
  refine ⟨n, rfl, hn, fun i hi hrun => ?_, .inl (by simp)⟩
  by_contra hne
  rw [View.handTo_st_of_ne v hne] at hrun
  exact hne (halone i hi hrun)

lemma no_runner_after_set (honly : ∀ i < maxTasks, v.st i = .running → i = c)
  (hstate : state ≠ .running) : ∀ i < maxTasks, (v.set c state).st i ≠ .running := by
  intro i hi hrun
  obtain ⟨hic, hrun⟩ := View.of_set_st hstate hrun
  exact hic (honly i hi hrun)

section
variable (hinv : OneRunner v)
include hinv

lemma oneRunner_spawned (hcur : v.cur = some c) (hrun : v.st c = .running)
    (hfree : v.st slot = .unused ∨ v.st slot = .finished) : OneRunner (v.set slot .ready) := by
  obtain ⟨c', hcur', hc, honly, _⟩ := hinv
  obtain rfl : c = c' := some.inj (hcur.symm.trans hcur')
  have hne : c ≠ slot := by
    rintro rfl
    rcases hfree with h | h <;> rw [h] at hrun <;> cases hrun
  refine ⟨c, hcur, hc, fun i hi hi' => ?_, .inl ?_⟩
  · exact honly i hi (View.of_set_st (by simp) hi').2
  rw [View.set_st_of_ne _ _ hne]
  exact hrun

lemma oneRunner_handed (hcur : v.cur = some c) (hstate : state ≠ .running) (hn : n < maxTasks) :
  OneRunner ((v.set c state).handTo n) := by
  obtain ⟨c', hcur', hc, honly, _⟩ := hinv
  obtain rfl : c = c' := some.inj (hcur.symm.trans hcur')
  exact oneRunner_handTo hn fun i hi hrun =>
    absurd hrun (no_runner_after_set honly hstate i hi)

lemma oneRunner_parked (hcur : v.cur = some c) (hnone : (v.set c .finished).next c = none) :
    OneRunner (v.set c .finished) := by
  obtain ⟨c', hcur', hc, honly, _⟩ := hinv
  obtain rfl : c = c' := some.inj (hcur.symm.trans hcur')
  exact ⟨c, hcur, hc,
    fun i hi hrun => absurd hrun (no_runner_after_set honly (by simp) i hi),
    .inr ⟨by simp, fun i hi => View.next_none hc hnone hi⟩⟩

lemma OneRunner.lt (hcur : v.cur = some c) : c < maxTasks := by
  obtain ⟨c', hcur', hc, _⟩ := hinv
  rwa [some.inj (hcur.symm.trans hcur')]

end

lemma oneRunner_effect (hinv : OneRunner s.view) (hadmits : admits s e) (heffect : Effect s e v d) :
  OneRunner v := by
  cases heffect with
  | quiet => exact hinv
  | spawned slot hinto hlt hfree =>
    obtain ⟨c, hcur, hrun⟩ := executing_of_spawnsInto hadmits hinto
    exact oneRunner_spawned hinv hcur hrun hfree
  | handed c n hcur hnext =>
    exact oneRunner_handed hinv hcur (by simp) (View.next_some (hinv.lt hcur) hnext).1
  | retired c n hwhy hcur hnext =>
    exact oneRunner_handed hinv hcur (by simp) (View.next_some (hinv.lt hcur) hnext).1
  | parked c hwhy hcur hnone => exact oneRunner_parked hinv hcur hnone

lemma oneRunner_schedInit (before : State) (mainName : List UInt8) :
  OneRunner (schedInit before mainName).view := by
  refine ⟨0, rfl, by decide, fun i hi hrun => ?_, .inl rfl⟩
  by_contra hne
  simp [State.view, schedInit, hne, hi, idleTask] at hrun

lemma oneRunner_of_reachable (hs : machine.Reachable s) : OneRunner s.view := by
  refine Machine.Reachable.invariant (fun s => OneRunner s.view) ?_ ?_ hs
  · rintro s ⟨before, mainName, rfl⟩
    exact oneRunner_schedInit before mainName
  intro s e hinv hadmits
  exact oneRunner_effect hinv hadmits (react_effect s e hadmits)

variable {x : TaskState}

lemma View.eq_of_set_st (hbefore : v.st i ≠ x)
  (hafter : (v.set slot state).st i = x) : i = slot ∧ state = x := by
  by_cases hi : i = slot
  · subst hi
    rw [View.set_st_same] at hafter
    exact ⟨rfl, hafter⟩
  rw [View.set_st_of_ne _ _ hi] at hafter
  exact absurd hafter hbefore

lemma View.st_of_handTo_st (hx : x ≠ .running) (hafter : (v.handTo n).st i = x) : v.st i = x := by
  by_cases hi : i = n
  · subst hi
    rw [View.handTo_st_same] at hafter
    exact absurd hafter.symm hx
  rw [View.handTo_st_of_ne _ hi] at hafter
  exact hafter

lemma finished_only_by_retiring (heffect : Effect s e v d) (hbefore : s.view.st i ≠ .finished)
  (hafter : v.st i = .finished) : s.current = some i ∧ Retires s e i := by
  cases heffect with
  | quiet => exact absurd hafter hbefore
  | spawned slot hinto hlt hfree =>
    obtain ⟨-, hstate⟩ := View.eq_of_set_st hbefore hafter
    cases hstate
  | handed c n hcur hnext =>
    have hafter := View.st_of_handTo_st (by decide) hafter
    obtain ⟨-, hstate⟩ := View.eq_of_set_st hbefore hafter
    cases hstate
  | retired c n hwhy hcur hnext =>
    have hafter := View.st_of_handTo_st (by decide) hafter
    obtain ⟨rfl, -⟩ := View.eq_of_set_st hbefore hafter
    exact ⟨hcur, hwhy⟩
  | parked c hwhy hcur hnone =>
    obtain ⟨rfl, -⟩ := View.eq_of_set_st hbefore hafter
    exact ⟨hcur, hwhy⟩

lemma ready_only_by_spawn (hinv : OneRunner s.view) (heffect : Effect s e v d)
  (hbefore : s.view.st i = .unused ∨ s.view.st i = .finished) (hafter : v.st i = .ready) :
  SpawnsInto s e i := by
  have hnot : s.view.st i ≠ .ready := by
    rcases hbefore with h | h <;> simp [h]
  obtain ⟨c, hcur, hc, _, hstate⟩ := hinv
  cases heffect with
  | quiet => exact absurd hafter hnot
  | spawned slot hinto hlt hfree =>
    obtain ⟨rfl, -⟩ := View.eq_of_set_st hnot hafter
    exact hinto
  | handed c' n hcur' hnext =>
    obtain rfl : c = c' := some.inj (hcur.symm.trans hcur')
    obtain ⟨hn, hready⟩ := View.next_some hc hnext
    have hafter := View.st_of_handTo_st (by decide) hafter
    obtain ⟨rfl, -⟩ := View.eq_of_set_st hnot hafter
    -- The outgoing slot was RUNNING: a parked CPU has nothing READY to hand to.
    rcases hstate with hrun | ⟨_, hidle⟩
    · rcases hbefore with h | h <;> rw [h] at hrun <;> cases hrun
    · exact absurd hready (hidle n hn)
  | retired c' n hwhy hcur' hnext =>
    have hafter := View.st_of_handTo_st (by decide) hafter
    obtain ⟨-, hfinished⟩ := View.eq_of_set_st hnot hafter
    cases hfinished
  | parked c' hwhy hcur' hnone =>
    obtain ⟨-, hfinished⟩ := View.eq_of_set_st hnot hafter
    cases hfinished

lemma view_step_of_parked (hcur : s.current = some c) (hfinished : s.view.st c = .finished)
  (hadmits : admits s e) : (machine.step s e).view = s.view := by
  have hidle : ¬ Executing s := by
    rintro ⟨c', hcur', hrun⟩
    obtain rfl : c = c' := some.inj (hcur.symm.trans hcur')
    have hstate : s.view.st c = .running := hrun
    rw [hfinished] at hstate
    cases hstate
  cases e with
  | tick => exact view_schedOnTick s
  | spawn | spawnUser | yield | exit | watchdogSet => exact absurd hadmits hidle

lemma view_run_of_parked {t : State} {es : List Event} (hrun : machine.Run s es t)
  (hcur : s.current = some c) (hfinished : s.view.st c = .finished) : t.view = s.view := by
  have hkeep : t.view = s.view ∧ t.current = some c := by
    refine hrun.invariant (fun r => r.view = s.view ∧ r.current = some c) ?_ ⟨rfl, hcur⟩
    rintro r e ⟨hview, hcurrent⟩ hadmits
    have hstep := view_step_of_parked hcurrent (by rw [hview]; exact hfinished) hadmits
    have hcurrent' := congrArg View.cur hstep
    exact ⟨hstep.trans hview, hcurrent'.trans hcurrent⟩
  exact hkeep.1

/-- In every reachable state the current slot is valid and no other slot is RUNNING; a slot
becomes FINISHED only when its own task exits or is killed, and READY only by a spawn; and without
a RUNNING slot nothing is READY and no slot state changes again. -/
theorem exactly_one_task_runs {s : State} (hs : machine.Reachable s) :
  (∃ c, s.current = some c ∧ c < maxTasks ∧
      ∀ i < maxTasks, (s.tasks i).state = .running → i = c) ∧
    (∀ e, admits s e → ∀ i < maxTasks,
      ((s.tasks i).state ≠ .finished → ((react s e).1.tasks i).state = .finished →
        s.current = some i ∧
          ((∃ ticks, e = .exit ticks) ∨
            (∃ ticks, e = .yield ticks) ∧ (s.tasks i).killPending = true)) ∧
      ((s.tasks i).state = .unused ∨ (s.tasks i).state = .finished →
        ((react s e).1.tasks i).state = .ready → SpawnsInto s e i)) ∧
    ((∀ i < maxTasks, (s.tasks i).state ≠ .running) →
      (∃ c, s.current = some c ∧ (s.tasks c).state = .finished) ∧
        (∀ i < maxTasks, (s.tasks i).state ≠ .ready) ∧
        ∀ es t, machine.Run s es t →
          ∀ i < maxTasks, (t.tasks i).state = (s.tasks i).state) := by
  have hinv := oneRunner_of_reachable hs
  obtain ⟨c, hcur, hc, honly, hstate⟩ := hinv
  refine ⟨⟨c, hcur, hc, honly⟩, fun e hadmits i _ => ⟨?_, ?_⟩, fun hnone => ?_⟩
  · exact finished_only_by_retiring (react_effect s e hadmits)
  · exact ready_only_by_spawn ⟨c, hcur, hc, honly, hstate⟩ (react_effect s e hadmits)
  rcases hstate with hrun | ⟨hfinished, hidle⟩
  · exact absurd hrun (hnone c hc)
  refine ⟨⟨c, hcur, hfinished⟩, hidle, fun es t hrun i _ => ?_⟩
  exact congrFun (congrArg View.st (view_run_of_parked hrun hcur hfinished)) i

def bootState : State :=
  schedInit ⟨fun _ => idleTask, none, 0, 600⟩ "main".toUTF8.toList

lemma reachable_bootState : machine.Reachable bootState :=
  Machine.reachable_of_init ⟨_, _, rfl⟩

def handingOver : List Event :=
  [.spawn [] 1 1 256, .spawn [] 1 1 256, .yield ⟨0, 0, 0⟩, .exit 0]

def handedOver : State := handingOver.foldl machine.step bootState

/-- The boot task spawns two tasks and yields to the first, which exits. -/
theorem exactly_one_task_runs_handed : (handedOver.tasks 1).state = .finished ∧
    ∃ c, handedOver.current = some c ∧ c < maxTasks ∧
      ∀ i < maxTasks, (handedOver.tasks i).state = .running → i = c := by
  have hrun : machine.Run bootState handingOver handedOver :=
    .cons ⟨0, rfl, rfl⟩ (.cons ⟨0, rfl, rfl⟩ (.cons ⟨0, rfl, rfl⟩ (.cons ⟨1, rfl, rfl⟩ (.nil _))))
  exact ⟨rfl, (exactly_one_task_runs (reachable_bootState.run hrun)).1⟩

end Aeos.Sched
