/-
# Preemption and rotation

Preemption by priority is decided only when a slice ends; a tick in the middle of a slice leaves
the current task as it is, outranked or stopped. Rotation does not take place: `schedule`
selects the front of the queues without moving it.
-/

import Aeos.Scheduler.Exact

namespace Aeos.Tasks

open Lib Option

def TaskState.Stopped (st : TaskState) : Prop := st = .blocked ∨ st = .zombie

instance : DecidablePred TaskState.Stopped := fun st =>
  inferInstanceAs (Decidable (st = .blocked ∨ st = .zombie))

/-! ## Fixed priorities -/

def View.Preemptive (v : View) : Prop :=
  ∃ c st p, v.current = some c ∧ v.task c = some (st, p) ∧ ¬ st.Stopped ∧
    ∀ i q, v.task i = some (.ready, q) → q ≤ p

variable {v : View} {i p n c : Nat} {s : Scheduler} {st : TaskState}

lemma Listed.runnable (hl : Listed v) (htask : v.task i = some (st, p))
  (hst : ¬ st.Stopped) : st.Runnable := by
  have hactive := hl.active htask
  cases st with
  | ready => exact .inl rfl
  | running => exact .inr rfl
  | blocked => exact absurd (.inl rfl) hst
  | suspended => exact absurd rfl hactive
  | zombie => exact absurd (.inr rfl) hst

lemma Listed.le_front (hl : Listed v) (hfront : v.front = some n)
  (hn : v.task n = some (st, p)) {q : Nat} {st' : TaskState} (hi : v.task i = some (st', q))
  (hrun : st'.Runnable) : q ≤ p := by
  obtain ⟨r, -, hmem, hmax⟩ := Levels.front_spec hfront
  obtain rfl := hl.level_eq hn hmem
  exact hmax q (hl.prio hi) i (hl.listed hi hrun)

lemma front_leave (hl : Listed v) : v.leave.front = v.front := by
  by_cases hrun : ∃ c p, v.current = some c ∧ v.task c = some (.running, p)
  · obtain ⟨c, p, hcur, htask⟩ := hrun
    rw [leave_eq_of_running hcur htask, level_of_lt (hl.prio htask)]
    exact Levels.front_push (List.ne_nil_of_mem (hl.listed htask (.inr rfl))) c
  · rw [leave_eq_of_not_running fun c p hcur htask => hrun ⟨c, p, hcur, htask⟩]

lemma enter_current (v : View) (n : Nat) : (v.enter n).current = some n := by
  unfold View.enter
  cases v.task n <;> rfl

lemma enter_queue (v : View) (n : Nat) : (v.enter n).queue = v.queue := by
  unfold View.enter
  cases v.task n <;> rfl

lemma front_scheduled (hl : Listed v) : v.scheduled.front = v.front := by
  refine scheduled_kept (P := fun v' => v'.front = v.front) rfl fun n _ _ => ?_
  rw [View.front, enter_queue]
  exact front_leave hl

lemma scheduled_current (hfront : v.front = some n) : v.scheduled.current = some n := by
  by_cases hcur : v.current = some n
  · rwa [scheduled_of_current hfront hcur]
  rw [scheduled_eq hfront hcur]
  exact enter_current _ n

lemma preemptive_scheduled_iff (hl : Listed v) : v.scheduled.Preemptive ↔
    ∃ n, v.front = some n ∧ (v.current = some n →
      ∀ st p, v.task n = some (st, p) → ¬ st.Stopped) := by
  have hl' := hl.scheduled
  cases hfront : v.front with
  | none =>
    -- Without entries nothing is runnable, so the current task is stopped or missing.
    refine iff_of_false ?_ (by simp)
    rintro ⟨c, st, p, -, htask, hst, -⟩
    have hmem := hl'.listed htask (hl'.runnable htask hst)
    have hempty := (front_scheduled hl).trans hfront
    rw [Levels.front_eq_none_iff.mp hempty p (hl'.prio htask)] at hmem
    cases hmem
  | some n =>
    have hfront' := (front_scheduled hl).trans hfront
    have hcur' := scheduled_current hfront
    have hgood : v.scheduled.Preemptive ↔
        ∀ st p, v.scheduled.task n = some (st, p) → ¬ st.Stopped := by
      constructor
      · rintro ⟨c, st, p, hc, htask, hst, -⟩ st' p' htask'
        obtain rfl := some.inj (hcur'.symm.trans hc)
        cases htask.symm.trans htask'
        exact hst
      intro h
      obtain ⟨st, p, htask⟩ := hl'.current hcur'
      exact ⟨n, st, p, hcur', htask, h st p htask,
        fun i q hi => hl'.le_front hfront' htask hi (.inl rfl)⟩
    rw [hgood]
    by_cases hcur : v.current = some n
    · rw [scheduled_of_current hfront hcur]
      exact ⟨fun h => ⟨n, rfl, fun _ => h⟩, fun ⟨m, hm, h⟩ => by
        obtain rfl := some.inj hm
        exact h hcur⟩
    refine iff_of_true (fun st p htask => ?_) ⟨n, rfl, fun h => absurd h hcur⟩
    obtain ⟨r, -, hmem, -⟩ := Levels.front_spec hfront
    obtain ⟨st', hn⟩ := hl.leave.entry (Listed.leave_queue_mem hmem)
    rw [scheduled_eq hfront hcur, Listed.enter_eq hn] at htask
    cases (View.set_task_same v.leave n .running r).symm.trans htask
    decide

/-- The state before a tick that decides by priority: either the current task goes on with its
slice and is neither stopped nor outranked, or the tick schedules, some queue has an entry, and
its front is not a stopped task that is already current. -/
def TickDecides (s : Scheduler) : Prop :=
  (∃ c t, s.current = some c ∧ s.tasks c = some t ∧ 1 < t.timeSlice ∧ ¬ t.state.Stopped ∧
    ∀ i u, s.tasks i = some u → u.state = .ready → u.priority ≤ t.priority) ∨
  (s.Expires ∧ ∃ n, s.queues.peek = some n ∧
    (s.current = some n → ∀ t, s.tasks n = some t → ¬ t.state.Stopped))

/-- The current task exists, is neither `Blocked` nor `Zombie`, and no `Ready` task has a
strictly higher priority. -/
def Preemptive (s : Scheduler) : Prop :=
  ∃ c t, s.current = some c ∧ s.tasks c = some t ∧ t.state ≠ .blocked ∧ t.state ≠ .zombie ∧
    ∀ i u, s.tasks i = some u → u.state = .ready → u.priority ≤ t.priority

lemma preemptive_view : Preemptive s ↔ s.view.Preemptive := by
  constructor
  · rintro ⟨c, t, hcur, ht, hblocked, hzombie, hmax⟩
    refine ⟨c, t.state, t.priority, hcur, view_task ht, ?_, fun i q hi => ?_⟩
    · rintro (h | h)
      · exact hblocked h
      · exact hzombie h
    obtain ⟨u, hu, hready, rfl⟩ := view_task_some hi
    exact hmax i u hu hready
  rintro ⟨c, st, p, hcur, htask, hst, hmax⟩
  obtain ⟨t, ht, rfl, rfl⟩ := view_task_some htask
  refine ⟨c, t, hcur, ht, fun h => hst (.inl h), fun h => hst (.inr h), fun i u hu hready => ?_⟩
  have hi := view_task hu
  rw [hready] at hi
  exact hmax i u.priority hi

/-- After a tick of an initialised scheduler the current task is the right one if and only
if the state before the tick is one that decides by priority. -/
theorem tick_preemptive_iff {s : Scheduler} (hs : machine.Reachable s)
  (hinit : s.initialized = true) : Preemptive s.tick.2 ↔ TickDecides s := by
  have hl := (sound_of_reachable hs).listed
  rw [preemptive_view]
  by_cases hexpires : s.Expires
  · rw [tick_of_expires hinit hexpires, preemptive_scheduled_iff hl]
    constructor
    · rintro ⟨n, hfront, hn⟩
      exact .inr ⟨hexpires, n, hfront, fun hcur t ht => hn hcur _ _ (view_task ht)⟩
    rintro (⟨c, t, hcur, ht, hslice, -⟩ | ⟨-, n, hfront, hn⟩)
    · obtain ⟨u, hu, hle⟩ := hexpires c hcur
      cases ht.symm.trans hu
      omega
    refine ⟨n, hfront, fun hcur st p htask => ?_⟩
    obtain ⟨t, ht, rfl, -⟩ := view_task_some htask
    exact hn hcur t ht
  rw [tick_of_not_expires fun h => hexpires h.2, ← preemptive_view]
  constructor
  · rintro ⟨c, t, hcur, ht, hblocked, hzombie, hmax⟩
    refine .inl ⟨c, t, hcur, ht, ?_, ?_, hmax⟩
    · by_contra hle
      refine hexpires fun d hd => ⟨t, ?_, Nat.not_lt.mp hle⟩
      cases hcur.symm.trans hd
      exact ht
    rintro (h | h)
    · exact hblocked h
    · exact hzombie h
  rintro (⟨c, t, hcur, ht, -, hst, hmax⟩ | ⟨hexp, -⟩)
  · exact ⟨c, t, hcur, ht, fun h => hst (.inl h), fun h => hst (.inr h), hmax⟩
  · exact absurd hexp hexpires

def firstTick : List Event := [.init, .createTask 0x1000 1 4096]

theorem tick_preemptive_first : Preemptive (firstTick.foldl machine.step Scheduler.new).tick.2 := by
  have hrun := machine.run_of_admitsAll Scheduler.new firstTick (by decide +kernel)
  refine (tick_preemptive_iff ⟨_, _, rfl, hrun⟩ (by decide +kernel)).mpr (.inr ⟨?_, 1, ?_, ?_⟩)
  · intro c hcur
    cases hcur
  · decide +kernel
  intro hcur
  cases hcur

def lateTask : List Event := [.init, .tick, .createTask 0x1000 1 4096]

/-- The next tick leaves the idle task current although the new task is `Ready`. -/
theorem idle_keeps_the_cpu : ∃ s, machine.Run Scheduler.new lateTask s ∧ s.initialized = true ∧
    s.tick.2.current = some 0 ∧ (s.tick.2.tasks 0).map Task.priority = some 0 ∧
    (s.tick.2.tasks 1).map (fun u => (u.state, u.priority)) = some (.ready, 1) ∧
    ¬ Preemptive s.tick.2 := by
  have hrun := machine.run_of_admitsAll Scheduler.new lateTask (by decide +kernel)
  generalize hs : lateTask.foldl machine.step Scheduler.new = s at hrun
  obtain ⟨hinit, hcur, hidle, hready⟩ : s.initialized = true ∧ s.tick.2.current = some 0 ∧
      (s.tick.2.tasks 0).map Task.priority = some 0 ∧
      (s.tick.2.tasks 1).map (fun u => (u.state, u.priority)) = some (.ready, 1) := by
    rw [← hs]
    decide +kernel
  refine ⟨s, hrun, hinit, hcur, hidle, hready, ?_⟩
  rintro ⟨c, t, hc, ht, -, -, hmax⟩
  obtain rfl := some.inj (hcur.symm.trans hc)
  obtain ⟨u, hu, heq⟩ := map_eq_some_iff.mp hready
  obtain ⟨hstate, hprio⟩ := Prod.mk.inj heq
  rw [ht] at hidle
  have hle := hmax 1 u hu hstate
  have hzero : t.priority = 0 := some.inj hidle
  omega

/-! ## Rotation -/

def RunnableAt (s : Scheduler) (i p : Nat) : Prop :=
  ∃ t ∈ s.tasks i, t.state.Runnable ∧ t.priority = p

instance (s : Scheduler) (i p : Nat) : Decidable (RunnableAt s i p) := by
  unfold RunnableAt
  infer_instance

/-- The current task is runnable at the highest runnable priority, and another task of
that priority is `Ready`. -/
def Contended (s : Scheduler) (c p : Nat) : Prop :=
  s.current = some c ∧ RunnableAt s c p ∧ (∀ i q, RunnableAt s i q → q ≤ p) ∧
    ∃ d, d ≠ c ∧ ∃ t ∈ s.tasks d, t.state = .ready ∧ t.priority = p

def Scheduler.sliceTicks (s : Scheduler) : Nat :=
  match s.current.bind s.tasks with
  | none => 1
  | some t => max 1 t.timeSlice

def Scheduler.expire (s : Scheduler) : Scheduler := (fun s => s.tick.2)^[s.sliceTicks] s

def runnableCount (s : Scheduler) (p : Nat) : Nat :=
  ((List.range maxTasks).filter fun i => decide (RunnableAt s i p)).length

/-- The end of a slice passes the processor on, and as many ends as there are runnable
tasks give each of them one turn. -/
structure RoundRobin (s : Scheduler) : Prop where
  next : ∀ c p, Contended s c p →
    ∃ d, d ≠ c ∧ s.expire.current = some d ∧ RunnableAt s.expire d p
  turns : ∀ c p, Contended s c p → ∀ i, RunnableAt s i p →
    ∃! j, j < runnableCount s p ∧ (Scheduler.expire^[j + 1] s).current = some i

lemma iterate_tick_view (k : Nat) {t : Task} (hinit : s.initialized = true)
  (hcur : s.current = some c) (ht : s.tasks c = some t) (hslice : max 1 t.timeSlice = k + 1) :
  ((fun s => s.tick.2)^[k + 1] s).view = s.view.scheduled ∧
    ((fun s => s.tick.2)^[k + 1] s).initialized = true := by
  induction k generalizing s t with
  | zero =>
    refine ⟨tick_of_expires hinit fun d hd => ⟨t, ?_, by omega⟩, react_initialized hinit .tick⟩
    cases hcur.symm.trans hd
    exact ht
  | succ k ih =>
    rw [Function.iterate_succ_apply]
    have hview := view_countdown ht
    have htick := tick_eq hinit hcur ht
    rw [if_neg (by omega)] at htick
    rw [htick, ← hview]
    refine ih hinit hcur (t := { t with timeSlice := t.timeSlice - 1 }) ?_ ?_
    · exact Function.update_self c _ s.tasks
    dsimp only
    omega

lemma expire_view (hinit : s.initialized = true) (hcur : s.current = some c) {t : Task}
  (ht : s.tasks c = some t) : s.expire.view = s.view.scheduled ∧ s.expire.initialized = true := by
  have hticks : s.sliceTicks = max 1 t.timeSlice := by
    simp only [Scheduler.sliceTicks, hcur, bind_some, ht]
  unfold Scheduler.expire
  rw [hticks, show max 1 t.timeSlice = (max 1 t.timeSlice - 1) + 1 by omega]
  exact iterate_tick_view _ hinit hcur ht (by omega)

lemma iterate_expire_view (hl : Listed s.view) (hinit : s.initialized = true)
  (hcur : s.current = some c) (hfront : s.view.front = some n) (j : Nat) :
  (Scheduler.expire^[j + 1] s).view = s.view.scheduled ∧
    (Scheduler.expire^[j + 1] s).initialized = true := by
  induction j with
  | zero =>
    obtain ⟨st, p, htask⟩ := hl.current hcur
    obtain ⟨t, ht, -⟩ := view_task_some htask
    exact expire_view hinit hcur ht
  | succ j ih =>
    rw [Function.iterate_succ_apply']
    generalize Scheduler.expire^[j + 1] s = r at ih
    obtain ⟨hview, hinit'⟩ := ih
    have hcur' : r.current = some n := by
      change r.view.current = some n
      rw [hview]
      exact scheduled_current hfront
    have hfront' : r.view.front = some n := by
      rw [hview]
      exact (front_scheduled hl).trans hfront
    obtain ⟨st, p, htask⟩ := hl.scheduled.current (scheduled_current hfront)
    rw [← hview] at htask
    obtain ⟨t, ht, -⟩ := view_task_some htask
    obtain ⟨hlast, hinit''⟩ := expire_view hinit' hcur' ht
    refine ⟨?_, hinit''⟩
    rw [hlast, scheduled_of_current hfront' hcur', hview]

lemma RunnableAt.task (h : RunnableAt s i p) :
  ∃ st, s.view.task i = some (st, p) ∧ st.Runnable := by
  obtain ⟨t, ht, hrun, rfl⟩ := h
  exact ⟨t.state, view_task ht, hrun⟩

lemma iterate_expire_current (hs : Sound s) (hcur : s.current = some c) (hc : RunnableAt s c p)
  (j : Nat) : (Scheduler.expire^[j + 1] s).current = s.queues.peek := by
  have hinit : s.initialized = true := by
    by_contra hnot
    rw [hs.fresh (by simpa using hnot)] at hcur
    cases hcur
  obtain ⟨st, htask, hrun⟩ := hc.task
  have hmem := hs.listed.listed htask hrun
  cases hfront : s.view.front with
  | none =>
    rw [Levels.front_eq_none_iff.mp hfront p (hs.listed.prio htask)] at hmem
    cases hmem
  | some n =>
    have hview := (iterate_expire_view hs.listed hinit hcur hfront j).1
    change (Scheduler.expire^[j + 1] s).view.current = s.view.front
    rw [hview, hfront]
    exact scheduled_current hfront

/-- The tasks of one priority take turns only where there are none: the rotation fails in every
reachable state in which two tasks compete. -/
theorem round_robin_iff {s : Scheduler} (hs : machine.Reachable s) :
  RoundRobin s ↔ ∀ c p, ¬ Contended s c p := by
  refine ⟨fun hrr c p hcon => ?_, fun h => ⟨fun c p hcon => absurd hcon (h c p), fun c p hcon =>
    absurd hcon (h c p)⟩⟩
  obtain ⟨hcur, hc, -, d, hne, t, ht, hready, hprio⟩ := id hcon
  have hd : RunnableAt s d p := ⟨t, ht, .inl hready, hprio⟩
  have hsame := iterate_expire_current (sound_of_reachable hs) hcur hc
  obtain ⟨j, ⟨-, hj⟩, -⟩ := hrr.turns c p hcon c hc
  obtain ⟨k, ⟨-, hk⟩, -⟩ := hrr.turns c p hcon d hd
  rw [hsame] at hj hk
  exact hne (some.inj (hk.symm.trans hj))

theorem round_robin_first : RoundRobin (firstTick.foldl machine.step Scheduler.new) :=
  (round_robin_iff ⟨_, _, rfl, machine.run_of_admitsAll Scheduler.new firstTick
    (by decide +kernel)⟩).mpr fun _ _ hcon => by cases hcon.1

def twoTasks : List Event :=
  [.init, .createTask 0x1000 1 4096, .createTask 0x2000 1 4096, .schedule]

/-- At the end of its slice the first task stays current, and at the next end too. -/
theorem second_task_gets_no_turn :
  ∃ s, machine.Run Scheduler.new twoTasks s ∧ Contended s 1 1 ∧ RunnableAt s 2 1 ∧
    s.expire.current = some 1 ∧ s.expire.expire.current = some 1 ∧ ¬ RoundRobin s := by
  have hrun := machine.run_of_admitsAll Scheduler.new twoTasks (by decide +kernel)
  have hsound := sound_of_reachable ⟨_, _, rfl, hrun⟩
  generalize hs : twoTasks.foldl machine.step Scheduler.new = s at hrun hsound
  obtain ⟨hmax, hfirst, hsecond, hfirst', hagain⟩ :
      (∀ i < maxTasks, ∀ t ∈ s.tasks i, t.priority ≤ 1) ∧ (s.current = some 1 ∧ RunnableAt s 1 1) ∧
      (∃ t ∈ s.tasks 2, t.state = .ready ∧ t.priority = 1) ∧ s.expire.current = some 1 ∧
      s.expire.expire.current = some 1 := by
    rw [← hs]
    decide +kernel
  have hcon : Contended s 1 1 := by
    refine ⟨hfirst.1, hfirst.2, fun i q hi => ?_, 2, by decide, hsecond⟩
    obtain ⟨t, ht, -, rfl⟩ := hi
    exact hmax i (hsound.listed.slot (view_task ht)) t ht
  refine ⟨s, hrun, hcon, ?_, hfirst', hagain, fun hrr => ?_⟩
  · obtain ⟨t, ht, hready, hprio⟩ := hsecond
    exact ⟨t, ht, .inl hready, hprio⟩
  obtain ⟨d, hne, hcur, -⟩ := hrr.next 1 1 hcon
  exact hne (some.inj (hcur.symm.trans hfirst'))

end Aeos.Tasks
