/-
# What the run queues hold

In every state reached, an entry stands in the queue of its task's priority and
every runnable task is listed there.
-/

import Aeos.Scheduler.Moves

namespace Aeos.Tasks

open Lib

/-! ## Listed tasks -/

structure Listed (v : View) : Prop where
  prio : ∀ {i p st}, v.task i = some (st, p) → p < maxPriority
  slot : ∀ {i p st}, v.task i = some (st, p) → i < maxTasks
  active : ∀ {i p st}, v.task i = some (st, p) → st ≠ .suspended
  entry : ∀ {i p}, i ∈ v.queue p → ∃ st, v.task i = some (st, p)
  listed : ∀ {i p st}, v.task i = some (st, p) → st.Runnable → i ∈ v.queue p
  current : ∀ {c}, v.current = some c → ∃ st p, v.task c = some (st, p)

namespace Listed

variable {v w : View}

lemma empty : Listed Scheduler.new.view where
  prio h := by cases h
  slot h := by cases h
  active h := by cases h
  entry h := by cases h
  listed h := by cases h
  current h := by cases h

variable {i p : Nat} {st : TaskState}

section
variable (hl : Listed v)
include hl

lemma level_eq {r : Nat} (htask : v.task i = some (st, p)) (hmem : i ∈ v.queue r) : r = p := by
  obtain ⟨st', htask'⟩ := hl.entry hmem
  rw [htask] at htask'
  cases htask'
  rfl

lemma push (hprio : p < maxPriority) (hslot : i < maxTasks)
    (hold : ∀ st r, v.task i = some (st, r) → r = p) :
  Listed ((v.set i .ready p).push (level p) i) := by
  rw [level_of_lt hprio]
  refine ⟨?_, ?_, ?_, ?_, ?_, ?_⟩
  · intro j r st htask
    rcases View.of_set_task htask with ⟨-, -, rfl⟩ | ⟨-, htask⟩
    · exact hprio
    · exact hl.prio htask
  · intro j r st htask
    rcases View.of_set_task htask with ⟨rfl, -, -⟩ | ⟨-, htask⟩
    · exact hslot
    · exact hl.slot htask
  · intro j r st htask
    rcases View.of_set_task htask with ⟨-, rfl, -⟩ | ⟨-, htask⟩
    · exact TaskState.noConfusion
    · exact hl.active htask
  · intro j r hmem
    by_cases hj : j = i
    · subst hj
      have hr : r = p := by
        rcases Levels.mem_push.mp hmem with hmem | ⟨hr, -⟩
        · obtain ⟨st, htask⟩ := hl.entry hmem
          exact hold st r htask
        · exact hr
      exact ⟨.ready, hr ▸ v.set_task_same j .ready p⟩
    rcases Levels.mem_push.mp hmem with hmem | ⟨-, heq⟩
    · obtain ⟨st, htask⟩ := hl.entry hmem
      exact ⟨st, (v.set_task_of_ne .ready p hj).trans htask⟩
    · exact absurd heq hj
  · intro j r st htask hrun
    rcases View.of_set_task htask with ⟨rfl, -, rfl⟩ | ⟨-, htask⟩
    · exact Levels.mem_push.mpr (.inr ⟨rfl, rfl⟩)
    · exact Levels.mem_push.mpr (.inl (hl.listed htask hrun))
  intro c hcur
  by_cases hc : c = i
  · subst hc
    exact ⟨.ready, p, v.set_task_same c .ready p⟩
  obtain ⟨st, r, htask⟩ := hl.current hcur
  exact ⟨st, r, (v.set_task_of_ne .ready p hc).trans htask⟩

lemma set {old new : TaskState} (htask : v.task i = some (old, p)) (hactive : new ≠ .suspended)
    (hnew : new.Runnable → i ∈ v.queue p) : Listed (v.set i new p) := by
  have hexists :
      ∀ {j r st}, v.task j = some (st, r) → ∃ st', (v.set i new p).task j = some (st', r) := by
    intro j r st h
    by_cases hj : j = i
    · subst hj
      cases htask.symm.trans h
      exact ⟨new, v.set_task_same j new p⟩
    · exact ⟨st, (v.set_task_of_ne new p hj).trans h⟩
  refine ⟨?_, ?_, ?_, ?_, ?_, ?_⟩
  · intro j r st h
    rcases View.of_set_task h with ⟨-, -, rfl⟩ | ⟨-, h⟩
    · exact hl.prio htask
    · exact hl.prio h
  · intro j r st h
    rcases View.of_set_task h with ⟨rfl, -, -⟩ | ⟨-, h⟩
    · exact hl.slot htask
    · exact hl.slot h
  · intro j r st h
    rcases View.of_set_task h with ⟨-, rfl, -⟩ | ⟨-, h⟩
    · exact hactive
    · exact hl.active h
  · intro j r hmem
    obtain ⟨st, h⟩ := hl.entry hmem
    exact hexists h
  · intro j r st h hrun
    rcases View.of_set_task h with ⟨rfl, rfl, rfl⟩ | ⟨-, h⟩
    · exact hnew hrun
    · exact hl.listed h hrun
  intro c hcur
  obtain ⟨st, r, h⟩ := hl.current hcur
  obtain ⟨st', h'⟩ := hexists h
  exact ⟨st', r, h'⟩

lemma erase (htask : v.task i = some (st, p)) (hst : ¬ st.Runnable) (r : Nat) :
  Listed (v.erase r i) where
  prio h := hl.prio h
  slot h := hl.slot h
  active h := hl.active h
  entry h := hl.entry (Levels.mem_of_mem_erase h)
  listed {j p' st'} h hrun := by
    have hj : j ≠ i := by
      rintro rfl
      cases htask.symm.trans h
      exact hst hrun
    exact (Levels.mem_erase_of_ne hj).mpr (hl.listed h hrun)
  current h := hl.current h

lemma other (hmove : Other v w) : Listed w := by
  cases hmove with
  | quiet => exact hl
  | added hnone hprio hslot =>
    exact hl.push hprio hslot fun st r h => by rw [hnone] at h; cases h
  | @stopped i p old new htask hnew =>
    have hstop : ¬ new.Runnable := by rcases hnew with rfl | rfl <;> decide
    have hactive : new ≠ .suspended := by rcases hnew with rfl | rfl <;> decide
    exact (hl.set htask hactive fun h => absurd h hstop).erase (v.set_task_same i new p) hstop _
  | woken htask =>
    exact hl.push (hl.prio htask) (hl.slot htask) fun st r h => by
      cases htask.symm.trans h
      rfl

lemma leave : Listed v.leave := by
  unfold View.leave
  cases v.current with
  | none => exact hl
  | some c =>
    dsimp only
    split
    · next p htask =>
        exact hl.push (hl.prio htask) (hl.slot htask) fun st r h => by
          cases htask.symm.trans h
          rfl
    · exact hl

end

lemma leave_queue_mem (hmem : i ∈ v.queue p) : i ∈ v.leave.queue p := by
  unfold View.leave
  cases v.current with
  | none => exact hmem
  | some c =>
    dsimp only
    split
    · exact Levels.mem_push.mpr (.inl hmem)
    · exact hmem

lemma enter_eq {n : Nat} (htask : v.task n = some (st, p)) :
  v.enter n = { v.set n .running p with current := some n } := by
  unfold View.enter
  rw [htask]

lemma enter (hl : Listed v) {n : Nat} (hmem : n ∈ v.queue p) : Listed (v.enter n) := by
  obtain ⟨st, htask⟩ := hl.entry hmem
  rw [enter_eq htask]
  have hset : Listed (v.set n .running p) := hl.set htask (by decide) fun _ => hmem
  exact { hset with
    current := fun {c} hcur => by
      obtain rfl := Option.some.inj hcur
      exact ⟨.running, p, v.set_task_same n .running p⟩ }

lemma scheduled (hl : Listed v) : Listed v.scheduled := by
  unfold View.scheduled
  cases hfront : v.front with
  | none => exact hl
  | some n =>
    dsimp only
    split_ifs
    · exact hl
    obtain ⟨p, -, hmem, -⟩ := Levels.front_spec hfront
    exact hl.leave.enter (leave_queue_mem hmem)

end Listed

/-! ## Reachable schedulers -/

structure Sound (s : Scheduler) : Prop where
  listed : Listed s.view
  fresh : s.initialized = false → s = Scheduler.new

lemma sound_new : Sound Scheduler.new := ⟨.empty, fun _ => rfl⟩

section
variable {s : Scheduler}

lemma enter_initialized (n : Nat) : (s.enter n).initialized = s.initialized := by
  unfold Scheduler.enter
  dsimp only
  cases s.tasks n <;> rfl

lemma leave_initialized (c : Nat) : (s.leave c).initialized = s.initialized := by
  unfold Scheduler.leave
  dsimp only
  cases s.tasks c with
  | none => rfl
  | some t =>
    dsimp only
    split_ifs <;> rfl

lemma schedule_initialized : s.schedule.2.initialized = s.initialized := by
  unfold Scheduler.schedule
  cases s.queues.peek with
  | none => rfl
  | some n =>
    cases hcur : s.current with
    | none => exact enter_initialized n
    | some c =>
      dsimp only
      split_ifs
      · rfl
      · exact (enter_initialized n).trans (leave_initialized c)

lemma react_initialized (hinit : s.initialized = true) (e : Event) :
  (react s e).initialized = true := by
  cases e with
  | init => simp [react, Scheduler.init, hinit]
  | createTask entry priority stackSize =>
    dsimp only [react, Scheduler.createTask]
    split_ifs
    · exact hinit
    · exact hinit
    · cases s.findFreeSlot <;> exact hinit
  | exitTask id exitCode =>
    dsimp only [react, Scheduler.exitTask]
    cases s.getTask id <;> exact hinit
  | blockTask id =>
    dsimp only [react, Scheduler.blockTask]
    cases s.getTask id with
    | error => exact hinit
    | ok t =>
      dsimp only
      split_ifs <;> exact hinit
  | unblockTask id =>
    dsimp only [react, Scheduler.unblockTask]
    cases s.getTask id with
    | error => exact hinit
    | ok t =>
      dsimp only
      split_ifs <;> exact hinit
  | tick =>
    dsimp only [react, Scheduler.tick]
    rw [if_neg (by simp [hinit])]
    cases s.current with
    | none => exact schedule_initialized.trans hinit
    | some c =>
      dsimp only
      cases s.tasks c with
      | none => exact hinit
      | some t =>
        dsimp only
        split_ifs
        · exact schedule_initialized.trans hinit
        · exact hinit
  | schedule => exact schedule_initialized.trans hinit

end

lemma react_new (e : Event) :
  react Scheduler.new e = Scheduler.new ∨ (react Scheduler.new e).initialized = true := by
  cases e with
  | init => exact .inr rfl
  | createTask entry priority stackSize => exact .inl rfl
  | exitTask id exitCode | blockTask id | unblockTask id =>
    left
    dsimp only [react, Scheduler.exitTask, Scheduler.blockTask, Scheduler.unblockTask]
    have hget : Scheduler.new.getTask id = .error .invalidTaskId := by
      unfold Scheduler.getTask
      split_ifs <;> rfl
    rw [hget]
  | tick | schedule => exact .inl rfl

variable {s : Scheduler}

lemma Sound.empty (hs : Sound s) (h : s.initialized = false) (i : Nat) : s.tasks i = none := by
  rw [hs.fresh h]
  rfl

lemma Sound.step (hs : Sound s) (e : Event) : Sound (react s e) where
  listed := by
    by_cases h : Schedules s e
    · rw [react_of_schedules h]
      exact hs.listed.scheduled
    · exact hs.listed.other (react_other h hs.empty)
  fresh := by
    intro hfalse
    by_cases hinit : s.initialized = true
    · rw [react_initialized hinit e] at hfalse
      cases hfalse
    rw [hs.fresh (by simpa using hinit)] at hfalse ⊢
    rcases react_new e with hsame | htrue
    · exact hsame
    rw [htrue] at hfalse
    cases hfalse

lemma sound_of_reachable (h : machine.Reachable s) : Sound s :=
  h.invariant Sound (by rintro _ rfl; exact sound_new) fun _ e hs _ => hs.step e

end Aeos.Tasks
