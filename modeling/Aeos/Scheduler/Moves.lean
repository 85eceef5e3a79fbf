/-
# What a scheduler call can do

A `View` keeps what the scheduling properties talk about: state and priority of
each task, the run queues, the current task. Every call that reaches `schedule`
does the same thing to the view, and `Other` lists what the remaining calls can
do.
-/

import Aeos.Scheduler.Model

namespace Aeos.Tasks

open Lib Function

structure View where
  task : Nat → Option (TaskState × Nat)
  queue : Levels Nat
  current : Option Nat

def Scheduler.view (s : Scheduler) : View where
  task i := (s.tasks i).map fun t => (t.state, t.priority)
  queue := s.queues.queues
  current := s.current

def TaskState.Runnable (st : TaskState) : Prop := st = .ready ∨ st = .running

instance : DecidablePred TaskState.Runnable := fun st =>
  inferInstanceAs (Decidable (st = .ready ∨ st = .running))

def level (p : Nat) : Nat := min p (maxPriority - 1)

lemma level_of_lt {p : Nat} (hp : p < maxPriority) : level p = p := by
  simp only [level, maxPriority] at *
  omega

namespace View

def set (v : View) (i : Nat) (st : TaskState) (p : Nat) : View :=
  { v with task := update v.task i (some (st, p)) }

def push (v : View) (p i : Nat) : View := { v with queue := Levels.push v.queue p i }

def erase (v : View) (p i : Nat) : View :=
  { v with queue := Levels.erase v.queue p i }

def leave (v : View) : View :=
  match v.current with
  | none => v
  | some c =>
    match v.task c with
    | some (.running, p) => (v.set c .ready p).push (level p) c
    | _ => v

def enter (v : View) (n : Nat) : View :=
  match v.task n with
  | none => { v with current := some n }
  | some (_, p) => { v.set n .running p with current := some n }

def front (v : View) : Option Nat := Levels.front v.queue maxPriority

def scheduled (v : View) : View :=
  match v.front with
  | none => v
  | some n => if v.current = some n then v else v.leave.enter n

@[simp]
lemma set_task_same (v : View) (i : Nat) (st : TaskState) (p : Nat) :
  (v.set i st p).task i = some (st, p) := update_self i _ v.task

lemma set_task_of_ne (v : View) {i j : Nat} (st : TaskState) (p : Nat) (hne : j ≠ i) :
  (v.set i st p).task j = v.task j := update_of_ne hne _ v.task

lemma of_set_task {v : View} {i j p r : Nat} {new st : TaskState}
    (h : (v.set i new p).task j = some (st, r)) :
  (j = i ∧ st = new ∧ r = p) ∨ (j ≠ i ∧ v.task j = some (st, r)) := by
  by_cases hj : j = i
  · subst hj
    cases (v.set_task_same j new p).symm.trans h
    exact .inl ⟨rfl, rfl, rfl⟩
  · exact .inr ⟨hj, (v.set_task_of_ne new p hj).symm.trans h⟩

end View

/-! ## Views of the code -/

section
variable {s : Scheduler} {i : Nat}

lemma view_task {t : Task} (ht : s.tasks i = some t) :
  s.view.task i = some (t.state, t.priority) := by
  simp [Scheduler.view, ht]

lemma view_task_none : s.view.task i = none ↔ s.tasks i = none := by
  simp [Scheduler.view]

lemma view_task_some {p : Nat} {st : TaskState} (h : s.view.task i = some (st, p)) :
  ∃ t, s.tasks i = some t ∧ t.state = st ∧ t.priority = p := by
  obtain ⟨t, ht, heq⟩ := Option.map_eq_some_iff.mp h
  obtain ⟨hst, hp⟩ := Prod.mk.inj heq
  exact ⟨t, ht, hst, hp⟩

lemma view_setTask (s : Scheduler) (i : Nat) (t : Task) :
  (s.setTask i t).view = s.view.set i t.state t.priority := by
  simp only [Scheduler.view, Scheduler.setTask, View.set, View.mk.injEq, and_true]
  funext j
  by_cases hj : j = i
  · rw [hj, update_self, update_self]
    rfl
  · rw [update_of_ne hj, update_of_ne hj]

lemma view_setTask_same {t u : Task} (ht : s.tasks i = some t)
  (hstate : u.state = t.state) (hprio : u.priority = t.priority) :
  (s.setTask i u).view = s.view := by
  rw [view_setTask, hstate, hprio]
  have hself : update s.view.task i (some (t.state, t.priority)) = s.view.task := by
    rw [← view_task ht, Function.update_eq_self]
  simp only [View.set, hself]

lemma view_enqueue (s : Scheduler) (i : Nat) (t : Task) :
  { s.setTask i t with queues := s.queues.enqueue i t.priority }.view
    = (s.view.set i t.state t.priority).push (level t.priority) i := by
  rw [← view_setTask]
  rfl

lemma view_remove (s : Scheduler) (i : Nat) (t : Task) :
  { s.setTask i t with queues := s.queues.remove i t.priority }.view
    = (s.view.set i t.state t.priority).erase (level t.priority) i := by
  rw [← view_setTask]
  rfl

lemma view_leave {c : Nat} (hcur : s.current = some c) : (s.leave c).view = s.view.leave := by
  have hcur' : s.view.current = some c := hcur
  unfold Scheduler.leave View.leave
  rw [hcur']
  dsimp only
  cases ht : s.tasks c with
  | none =>
    rw [view_task_none.mpr ht]
    rfl
  | some t =>
    rw [view_task ht]
    dsimp only
    by_cases hrunning : t.state = .running
    · rw [if_pos hrunning, hrunning]
      exact view_enqueue { s with contextSwitches := s.contextSwitches + 1 } c
        { t with state := .ready, timeSlice := s.policy.timeSlice t.priority }
    have hkept := view_setTask_same (s := { s with contextSwitches := s.contextSwitches + 1 })
      (u := { t with timeSlice := s.policy.timeSlice t.priority }) ht rfl rfl
    cases hst : t.state with
    | running => exact absurd hst hrunning
    | ready | blocked | suspended | zombie => rwa [hst] at hkept

lemma view_enter (n : Nat) : (s.enter n).view = s.view.enter n := by
  unfold Scheduler.enter View.enter
  cases ht : s.tasks n with
  | none =>
    rw [view_task_none.mpr ht]
    dsimp only
    rw [ht]
    rfl
  | some t =>
    rw [view_task ht]
    dsimp only
    rw [ht]
    rw [view_setTask]
    rfl

lemma view_schedule : s.schedule.2.view = s.view.scheduled := by
  unfold Scheduler.schedule View.scheduled
  change _ = (match s.queues.peek with
    | none => s.view
    | some n => if s.current = some n then s.view else s.view.leave.enter n)
  cases s.queues.peek with
  | none => rfl
  | some n =>
    dsimp only
    cases hcur : s.current with
    | none =>
      have hleave : s.view.leave = s.view := by
        have hcur' : s.view.current = none := hcur
        simp only [View.leave, hcur']
      rw [if_neg (by simp), hleave]
      exact view_enter n
    | some c =>
      dsimp only
      by_cases hc : c = n
      · rw [if_pos hc, if_pos (by rw [hc])]
      rw [if_neg hc, if_neg (by simpa using hc)]
      rw [view_enter, view_leave hcur]

lemma view_countdown {c : Nat} {t : Task} (ht : s.tasks c = some t) :
  ({ s with ticks := s.ticks + 1 }.setTask c { t with timeSlice := t.timeSlice - 1 }).view
    = s.view :=
  view_setTask_same (s := { s with ticks := s.ticks + 1 }) ht rfl rfl

end

def Scheduler.Expires (s : Scheduler) : Prop :=
  ∀ c ∈ s.current, ∃ t ∈ s.tasks c, t.timeSlice ≤ 1

def Schedules (s : Scheduler) (e : Event) : Prop :=
  e = .schedule ∨ e = .tick ∧ s.initialized = true ∧ s.Expires

instance (s : Scheduler) (e : Event) : Decidable (Schedules s e) := by
  unfold Schedules Scheduler.Expires
  infer_instance

inductive Other (v : View) : View → Prop
  | quiet : Other v v
  | added {i p : Nat} : v.task i = none → p < maxPriority → i < maxTasks →
      Other v ((v.set i .ready p).push (level p) i)
  | stopped {i p : Nat} {old new : TaskState} : v.task i = some (old, p) →
      new = .blocked ∨ new = .zombie → Other v ((v.set i new p).erase (level p) i)
  | woken {i p : Nat} : v.task i = some (.blocked, p) →
      Other v ((v.set i .ready p).push (level p) i)

variable {s : Scheduler}

lemma tick_eq {c : Nat} {t : Task} (hinit : s.initialized = true) (hcur : s.current = some c)
  (ht : s.tasks c = some t) : s.tick = if t.timeSlice - 1 = 0 then
      ({ s with ticks := s.ticks + 1 }.setTask c
        { t with timeSlice := t.timeSlice - 1 }).schedule
    else (none, { s with ticks := s.ticks + 1 }.setTask c
      { t with timeSlice := t.timeSlice - 1 }) := by
  unfold Scheduler.tick
  rw [if_neg (by simp [hinit])]
  rw [hcur]
  dsimp only
  rw [ht]

lemma tick_of_expires (hinit : s.initialized = true) (h : s.Expires) :
  s.tick.2.view = s.view.scheduled := by
  cases hcur : s.current with
  | none =>
    unfold Scheduler.tick
    rw [if_neg (by simp [hinit])]
    rw [hcur]
    rw [view_schedule]
    simp only [Scheduler.view, hcur]
  | some c =>
    obtain ⟨t, ht, hslice⟩ := h c hcur
    rw [tick_eq hinit hcur ht, if_pos (by omega), view_schedule, view_countdown ht]

lemma tick_of_not_expires (h : ¬ (s.initialized = true ∧ s.Expires)) : s.tick.2.view = s.view := by
  by_cases hinit : s.initialized = true
  · have hlive : ¬ s.Expires := fun hexpires => h ⟨hinit, hexpires⟩
    simp only [Scheduler.Expires, Option.mem_def, not_forall] at hlive
    obtain ⟨c, hcur, hslice⟩ := hlive
    cases ht : s.tasks c with
    | none =>
      unfold Scheduler.tick
      rw [if_neg (by simp [hinit])]
      rw [hcur]
      dsimp only
      rw [ht]
      simp only [Scheduler.view, hcur]
    | some t =>
      have hslice' : ¬ t.timeSlice ≤ 1 := fun hle => hslice ⟨t, ht, hle⟩
      rw [tick_eq hinit hcur ht, if_neg (by omega)]
      exact view_countdown ht
  unfold Scheduler.tick
  rw [if_pos (by simpa using hinit)]

lemma react_of_schedules {e : Event} (h : Schedules s e) : (react s e).view = s.view.scheduled := by
  rcases h with rfl | ⟨rfl, hinit, hexpires⟩
  · exact view_schedule
  · exact tick_of_expires hinit hexpires

lemma getTask_ok {id : Nat} {t : Task} (h : s.getTask id = .ok t) : s.tasks id = some t := by
  unfold Scheduler.getTask at h
  split_ifs at h
  cases ht : s.tasks id with
  | none => simp [ht] at h
  | some u => simpa [ht] using h

lemma react_other {e : Event} (h : ¬ Schedules s e)
  (hempty : s.initialized = false → ∀ i, s.tasks i = none) : Other s.view (react s e).view := by
  cases e with
  | init =>
    dsimp only [react]
    unfold Scheduler.init
    split_ifs with hinit
    · exact .quiet
    have hview := view_enqueue s 0 (Task.newIdle 0)
    have hadded : Other s.view ((s.view.set 0 .ready 0).push (level 0) 0) :=
      .added (view_task_none.mpr (hempty (by simpa using hinit) 0)) (by decide) (by decide)
    exact hview ▸ hadded
  | createTask entry priority stackSize =>
    dsimp only [react]
    unfold Scheduler.createTask
    split_ifs with hinit hprio
    · exact .quiet
    · exact .quiet
    cases hslot : s.findFreeSlot with
    | none => exact .quiet
    | some id =>
      obtain ⟨hfree, hid⟩ : s.tasks id = none ∧ id < maxTasks := by
        refine ⟨by simpa using List.find?_some hslot, ?_⟩
        exact List.mem_range.mp (List.mem_of_find?_eq_some hslot)
      have hview := view_enqueue s id (Task.new id entry priority stackSize)
      have hadded : Other s.view ((s.view.set id .ready priority).push (level priority) id) :=
        .added (view_task_none.mpr hfree) (Nat.not_le.mp hprio) hid
      exact hview ▸ hadded
  | exitTask id exitCode =>
    dsimp only [react]
    unfold Scheduler.exitTask
    cases hget : s.getTask id with
    | error => exact .quiet
    | ok t =>
      have hview := view_remove s id { t with state := .zombie, exitCode := exitCode }
      have htask := view_task (getTask_ok hget)
      exact hview ▸ .stopped htask (.inr rfl)
  | blockTask id =>
    dsimp only [react]
    unfold Scheduler.blockTask
    cases hget : s.getTask id with
    | error => exact .quiet
    | ok t =>
      dsimp only
      split_ifs
      · exact .quiet
      have hview := view_remove s id { t with state := .blocked }
      have htask := view_task (getTask_ok hget)
      exact hview ▸ .stopped htask (.inl rfl)
  | unblockTask id =>
    dsimp only [react]
    unfold Scheduler.unblockTask
    cases hget : s.getTask id with
    | error => exact .quiet
    | ok t =>
      dsimp only
      split_ifs with hstate
      · exact .quiet
      have hview := view_enqueue s id { t with state := .ready }
      have htask := view_task (getTask_ok hget)
      rw [not_not.mp hstate] at htask
      exact hview ▸ .woken htask
  | tick =>
    have hview : (react s .tick).view = s.view :=
      tick_of_not_expires fun hboth => h (.inr ⟨rfl, hboth⟩)
    rw [hview]
    exact .quiet
  | schedule => exact absurd (.inl rfl) h

end Aeos.Tasks
