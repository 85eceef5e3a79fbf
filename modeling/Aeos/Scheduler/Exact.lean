/-
# The run queues while nothing is preempted

That a task is listed only once, and a stopped one not at all, is not kept.
-/

import Aeos.Scheduler.Queues

namespace Aeos.Tasks

open Lib List

structure Tidy (v : View) : Prop extends Listed v where
  once : ∀ {i p st}, v.task i = some (st, p) → st.Runnable → (v.queue p).count i = 1
  absent : ∀ {i p st}, v.task i = some (st, p) → ¬ st.Runnable → i ∉ v.queue p
  runs : ∀ {i p}, v.task i = some (.running, p) → v.current = some i
  head : ∀ {i p}, v.task i = some (.running, p) → (v.queue p).head? = some i

namespace Tidy

variable {v w : View}

lemma empty : Tidy Scheduler.new.view where
  toListed := .empty
  once h := by cases h
  absent h := by cases h
  runs h := by cases h
  head h := by cases h

variable (ht : Tidy v)
include ht

lemma push {i p : Nat} (hprio : p < maxPriority) (hslot : i < maxTasks)
    (hold : ∀ st r, v.task i = some (st, r) → r = p) (hout : i ∉ v.queue p) :
  Tidy ((v.set i .ready p).push (level p) i) := by
  have hl := ht.toListed.push hprio hslot hold
  rw [level_of_lt hprio] at hl ⊢
  refine ⟨hl, ?_, ?_, ?_, ?_⟩
  · intro j r st h hrun
    rcases View.of_set_task h with ⟨rfl, -, rfl⟩ | ⟨hj, h⟩
    · exact (Levels.count_push_same r j).trans
        (congrArg (· + 1) (count_eq_zero_of_not_mem hout))
    · exact (Levels.count_push_of_ne p r hj).trans (ht.once h hrun)
  · intro j r st h hstop hmem
    rcases View.of_set_task h with ⟨-, rfl, -⟩ | ⟨hj, h⟩
    · exact hstop (.inl rfl)
    rcases Levels.mem_push.mp hmem with hmem | ⟨-, heq⟩
    · exact ht.absent h hstop hmem
    · exact hj heq
  · intro j r h
    rcases View.of_set_task h with ⟨-, hstate, -⟩ | ⟨-, h⟩
    · cases hstate
    · exact ht.runs h
  intro j r h
  rcases View.of_set_task h with ⟨-, hstate, -⟩ | ⟨-, h⟩
  · cases hstate
  · exact Levels.head_push (ht.head h)

lemma count_le {i p : Nat} {st : TaskState} (htask : v.task i = some (st, p)) :
  (v.queue p).count i ≤ 1 := by
  by_cases hrun : st.Runnable
  · exact Nat.le_of_eq (ht.once htask hrun)
  rw [count_eq_zero_of_not_mem (ht.absent htask hrun)]
  exact Nat.zero_le 1

lemma stop {i p : Nat} {old new : TaskState} (htask : v.task i = some (old, p))
    (hactive : new ≠ .suspended) (hstop : ¬ new.Runnable) : Tidy ((v.set i new p).erase p i) := by
  have hl := (ht.toListed.set htask hactive fun h => absurd h hstop).erase
    (v.set_task_same i new p) hstop p
  refine ⟨hl, ?_, ?_, ?_, ?_⟩
  · intro j r st h hrun
    rcases View.of_set_task h with ⟨-, rfl, -⟩ | ⟨hj, h⟩
    · exact absurd hrun hstop
    · exact (Levels.count_erase_of_ne p r hj).trans (ht.once h hrun)
  · intro j r st h hnot hmem
    rcases View.of_set_task h with ⟨rfl, -, rfl⟩ | ⟨hj, h⟩
    · have hcount : (Levels.erase v.queue r j r).count j = 0 := by
        rw [Levels.count_erase_same]
        exact Nat.sub_eq_zero_of_le (ht.count_le htask)
      exact count_eq_zero.mp hcount hmem
    · exact ht.absent h hnot (Levels.mem_of_mem_erase hmem)
  · intro j r h
    rcases View.of_set_task h with ⟨-, hstate, -⟩ | ⟨-, h⟩
    · exact absurd (.inr hstate.symm) hstop
    · exact ht.runs h
  intro j r h
  rcases View.of_set_task h with ⟨-, hstate, -⟩ | ⟨hj, h⟩
  · exact absurd (.inr hstate.symm) hstop
  · exact Levels.head_erase_of_ne hj (ht.head h)

lemma other (hmove : Other v w) : Tidy w := by
  cases hmove with
  | quiet => exact ht
  | added hnone hprio hslot =>
    refine ht.push hprio hslot (fun st r h => by rw [hnone] at h; cases h) fun hmem => ?_
    obtain ⟨st, h⟩ := ht.entry hmem
    rw [hnone] at h
    cases h
  | @stopped i p old new htask hnew =>
    rw [level_of_lt (ht.prio htask)]
    rcases hnew with rfl | rfl <;> exact ht.stop htask (by decide) (by decide)
  | woken htask =>
    refine ht.push (ht.prio htask) (ht.slot htask) (fun st r h => ?_) (ht.absent htask (by decide))
    cases htask.symm.trans h
    rfl

lemma enter {n p : Nat} (hhead : (v.queue p).head? = some n)
    (hidle : ∀ i r, v.task i ≠ some (.running, r)) : Tidy (v.enter n) := by
  have hmem := List.mem_of_head? hhead
  obtain ⟨st, htask⟩ := ht.entry hmem
  have hrun : st.Runnable := by
    by_contra hnot
    exact ht.absent htask hnot hmem
  have hl := ht.toListed.enter hmem
  rw [Listed.enter_eq htask] at hl ⊢
  refine ⟨hl, ?_, ?_, ?_, ?_⟩
  · intro j r st' h hrun'
    rcases View.of_set_task h with ⟨rfl, -, rfl⟩ | ⟨-, h⟩
    · exact ht.once htask hrun
    · exact ht.once h hrun'
  · intro j r st' h hnot
    rcases View.of_set_task h with ⟨-, hstate, -⟩ | ⟨-, h⟩
    · exact absurd (.inr hstate) hnot
    · exact ht.absent h hnot
  · intro j r h
    rcases View.of_set_task h with ⟨rfl, -, -⟩ | ⟨-, h⟩
    · rfl
    · exact absurd h (hidle j r)
  intro j r h
  rcases View.of_set_task h with ⟨rfl, -, rfl⟩ | ⟨-, h⟩
  · exact hhead
  · exact absurd h (hidle j r)

end Tidy

/-! ## Preemption -/

def Preempts (v : View) (c p : Nat) : Prop :=
  v.current = some c ∧ v.task c = some (.running, p) ∧
    ∃ i q, v.task i = some (.ready, q) ∧ p < q

variable {v : View} {p : Nat} {s : Scheduler}

lemma scheduled_eq {n : Nat} (hfront : v.front = some n) (hcur : v.current ≠ some n) :
  v.scheduled = v.leave.enter n := by
  unfold View.scheduled
  rw [hfront]
  dsimp only
  rw [if_neg hcur]

lemma scheduled_eq_self (h : ∀ n, v.front = some n → v.current = some n) : v.scheduled = v := by
  unfold View.scheduled
  cases hfront : v.front with
  | none => rfl
  | some n =>
    dsimp only
    rw [if_pos (h n hfront)]

lemma scheduled_of_current {n : Nat} (hfront : v.front = some n) (hcur : v.current = some n) :
  v.scheduled = v :=
  scheduled_eq_self fun m hm => by rw [hcur, ← hfront, hm]

lemma scheduled_kept {P : View → Prop} (hkept : P v)
  (hswitch : ∀ n, v.front = some n → v.current ≠ some n → P (v.leave.enter n)) : P v.scheduled := by
  by_cases hsame : ∀ n, v.front = some n → v.current = some n
  · rwa [scheduled_eq_self hsame]
  simp only [not_forall] at hsame
  obtain ⟨n, hfront, hcur⟩ := hsame
  rw [scheduled_eq hfront hcur]
  exact hswitch n hfront hcur

lemma leave_eq_of_not_running (h : ∀ c p, v.current = some c → v.task c ≠ some (.running, p)) :
  v.leave = v := by
  unfold View.leave
  cases hcur : v.current with
  | none => rfl
  | some c =>
    dsimp only
    split
    · next p htask => exact absurd htask (h c p hcur)
    · rfl

lemma leave_eq_of_running {c : Nat} (hcur : v.current = some c)
  (htask : v.task c = some (.running, p)) : v.leave = (v.set c .ready p).push (level p) c := by
  unfold View.leave
  rw [hcur]
  dsimp only
  rw [htask]

lemma Tidy.scheduled (ht : Tidy v) (hcalm : ∀ c p, ¬ Preempts v c p) : Tidy v.scheduled := by
  refine scheduled_kept ht fun n hfront hcur => ?_
  obtain ⟨q, hq, hhead, habove⟩ := Levels.front_eq_some_iff.mp hfront
  have hmem := List.mem_of_head? hhead
  -- A running task would be the current one, hence not the front: it is preempted.
  have hidle : ∀ i p, v.task i ≠ some (.running, p) := by
    intro c p htask
    have hc := ht.runs htask
    obtain ⟨st, hn⟩ := ht.entry hmem
    have hpq : p < q := by
      by_contra hle
      rcases Nat.lt_or_ge q p with hlt | hge
      · have hempty := habove p hlt (ht.prio htask)
        have hin := ht.listed htask (.inr rfl)
        rw [hempty] at hin
        cases hin
      obtain rfl : p = q := Nat.le_antisymm hge (Nat.not_lt.mp hle)
      rw [ht.head htask] at hhead
      exact hcur (hc.trans hhead)
    have hready : st = .ready := by
      by_contra hne
      by_cases hrun : st.Runnable
      · rcases hrun with h | h
        · exact hne h
        · exact hcur (ht.runs (h ▸ hn))
      · exact ht.absent hn hrun hmem
    exact hcalm c p ⟨hc, htask, n, q, hready ▸ hn, hpq⟩
  rw [leave_eq_of_not_running fun c p _ => hidle c p]
  exact ht.enter hhead hidle

lemma Tidy.count_of_preempts (ht : Tidy v) {c : Nat} (h : Preempts v c p) :
  v.scheduled.task c = some (.ready, p) ∧ (v.scheduled.queue p).count c = 2 := by
  obtain ⟨hcur, htask, i, q, hready, hpq⟩ := h
  have hin := ht.listed hready (.inl rfl)
  cases hfront : v.front with
  | none =>
    rw [Levels.front_eq_none_iff.mp hfront q (ht.prio hready)] at hin
    cases hin
  | some n =>
    obtain ⟨r, -, hmem, hmax⟩ := Levels.front_spec hfront
    have hqr : q ≤ r := hmax q (ht.prio hready) i hin
    have hne : c ≠ n := by
      rintro rfl
      have := ht.level_eq htask hmem
      omega
    rw [scheduled_eq hfront (by rw [hcur]; simpa using hne), leave_eq_of_running hcur htask,
      level_of_lt (ht.prio htask)]
    obtain ⟨st, hn⟩ := ht.entry hmem
    have hn' : ((v.set c .ready p).push p c).task n = some (st, r) :=
      (v.set_task_of_ne .ready p (Ne.symm hne)).trans hn
    rw [Listed.enter_eq hn']
    refine ⟨?_, ?_⟩
    · exact (View.set_task_of_ne _ .running r hne).trans (v.set_task_same c .ready p)
    exact (Levels.count_push_same p c).trans
      (congrArg (· + 1) (ht.once htask (.inr rfl)))

/-- The queues hold exactly the runnable tasks, each once and at its priority, and the next
decision runs no stopped task. -/
structure RunQueuesExact (s : Scheduler) : Prop where
  runnable : ∀ i t, s.tasks i = some t → t.state.Runnable → ∀ p,
    (s.queues.queues p).count i = if p = t.priority then 1 else 0
  stopped : ∀ i t, s.tasks i = some t → t.state = .blocked ∨ t.state = .zombie → ∀ p,
    i ∉ s.queues.queues p
  kept : ∀ e, e = .schedule ∨ e = .tick → ∀ i t, s.tasks i = some t →
    t.state = .blocked ∨ t.state = .zombie → ∀ u, (react s e).tasks i = some u →
      u.state ≠ .running

/-- If the call schedules while the current task runs, no `Ready` task has a higher
priority. -/
def NoPreemption (s : Scheduler) (e : Event) : Prop :=
  Schedules s e → ∀ c ∈ s.current, ∀ t ∈ s.tasks c, t.state = .running →
    ∀ i < maxTasks, ∀ u ∈ s.tasks i, u.state = .ready → u.priority ≤ t.priority

instance (s : Scheduler) (e : Event) : Decidable (NoPreemption s e) := by
  unfold NoPreemption
  exact instDecidableForall

instance (s : Scheduler) (e : Event) : Decidable (machine.enabled s e) :=
  inferInstanceAs (Decidable True)

instance (s : Scheduler) (e : Event) : Decidable ((machine.restrict NoPreemption).enabled s e) :=
  inferInstanceAs (Decidable (True ∧ NoPreemption s e))

lemma noPreemption_of_calm {e : Event} (h : Schedules s e → ∀ c p, ¬ Preempts s.view c p) :
  NoPreemption s e := by
  intro hsched c hcur t ht hrun i _ u hu hready
  by_contra hlt
  have htask := view_task ht
  have hother := view_task hu
  rw [hrun] at htask
  rw [hready] at hother
  exact h hsched c t.priority ⟨hcur, htask, i, u.priority, hother, Nat.not_le.mp hlt⟩

lemma calm_of_noPreemption {e : Event} (hs : Listed s.view) (h : NoPreemption s e)
  (hsched : Schedules s e) (c p : Nat) : ¬ Preempts s.view c p := by
  rintro ⟨hcur, htask, i, q, hready, hpq⟩
  obtain ⟨t, ht, hrun, rfl⟩ := view_task_some htask
  obtain ⟨u, hu, hstate, rfl⟩ := view_task_some hready
  have hle := h hsched c hcur t ht hrun i (hs.slot hready) u hu hstate
  omega

variable {st : TaskState}

lemma not_runnable_of_stopped (h : st = .blocked ∨ st = .zombie) : ¬ st.Runnable := by
  rcases h with rfl | rfl <;> decide

lemma Tidy.scheduled_stopped (ht : Tidy v) {i : Nat}
  (htask : v.task i = some (st, p)) (hstop : ¬ st.Runnable) :
  v.scheduled.task i = some (st, p) := by
  refine scheduled_kept (P := fun v' => v'.task i = some (st, p)) htask fun n hfront hcur => ?_
  obtain ⟨r, -, hmem, -⟩ := Levels.front_spec hfront
  have hne : i ≠ n := by
    rintro rfl
    obtain rfl := ht.level_eq htask hmem
    exact ht.absent htask hstop hmem
  have hleave : v.leave.task i = some (st, p) := by
    unfold View.leave
    cases hc : v.current with
    | none => exact htask
    | some c =>
      dsimp only
      split
      · next q hrunning =>
          have hic : i ≠ c := by
            rintro rfl
            cases hrunning.symm.trans htask
            exact hstop (.inr rfl)
          exact (v.set_task_of_ne .ready q hic).trans htask
      · exact htask
  obtain ⟨st', hn⟩ := ht.toListed.leave.entry (Listed.leave_queue_mem hmem)
  rw [Listed.enter_eq hn]
  exact (View.set_task_of_ne _ .running r hne).trans hleave

lemma Tidy.runQueuesExact (ht : Tidy s.view) : RunQueuesExact s where
  runnable i t hi hrun p := by
    have htask := view_task hi
    split_ifs with hp
    · rw [hp]
      exact ht.once htask hrun
    refine count_eq_zero_of_not_mem fun hmem => hp ?_
    exact ht.level_eq htask hmem
  stopped i t hi hstop p hmem := by
    have htask := view_task hi
    obtain rfl := ht.level_eq htask hmem
    exact ht.absent htask (not_runnable_of_stopped hstop) hmem
  kept e he i t hi hstop u hu := by
    have htask := view_task hi
    have hnot := not_runnable_of_stopped hstop
    have hview : (react s e).view = s.view.scheduled ∨ (react s e).view = s.view := by
      by_cases hsched : Schedules s e
      · exact .inl (react_of_schedules hsched)
      rcases he with rfl | rfl
      · exact absurd (.inl rfl) hsched
      · exact .inr (tick_of_not_expires fun hboth => hsched (.inr ⟨rfl, hboth⟩))
    have hsame : (react s e).view.task i = some (t.state, t.priority) := by
      rcases hview with hview | hview <;> rw [hview]
      · exact ht.scheduled_stopped htask hnot
      · exact htask
    intro hrunning
    have hpair := Option.some.inj ((view_task hu).symm.trans hsame)
    have hstate := congrArg Prod.fst hpair
    exact hnot (.inr (hstate.symm.trans hrunning))

/-- Along every run the queues hold exactly the runnable tasks if and only if no call of
the run preempts a running task. -/
theorem run_queues_exact {es : List Event} {t : Scheduler} (hrun : machine.Run Scheduler.new es t) :
  machine.Throughout RunQueuesExact Scheduler.new es ↔
    (machine.restrict NoPreemption).Run Scheduler.new es t := by
  refine hrun.throughout_iff (fun s (hs : Sound s ∧ Tidy s.view) => hs.2.runQueuesExact) ?_ ?_
    ⟨sound_new, Tidy.empty⟩
  · rintro s e ⟨hs, ht⟩ - hguard
    refine ⟨hs.step e, ?_⟩
    by_cases hsched : Schedules s e
    · change Tidy (react s e).view
      rw [react_of_schedules hsched]
      exact ht.scheduled (calm_of_noPreemption hs.listed hguard hsched)
    · exact ht.other (react_other hsched hs.empty)
  rintro s e ⟨hs, ht⟩ - hguard hexact
  obtain ⟨hsched, c, p, hpre⟩ : Schedules s e ∧ ∃ c p, Preempts s.view c p := by
    by_contra hnot
    refine hguard (noPreemption_of_calm fun hsched c p hpre => ?_)
    exact hnot ⟨hsched, c, p, hpre⟩
  obtain ⟨htask, hcount⟩ := ht.count_of_preempts hpre
  rw [← react_of_schedules hsched] at htask hcount
  obtain ⟨u, hu, hready, rfl⟩ := view_task_some htask
  have hone := hexact.runnable c u hu (.inl hready) u.priority
  rw [if_pos rfl] at hone
  change ((react s e).queues.queues u.priority).count c = 2 at hcount
  rw [show machine.step s e = react s e from rfl] at hone
  omega

def calmEvents : List Event :=
  [.init, .createTask 0x1000 1 4096, .schedule, .blockTask 1, .tick, .schedule]

theorem run_queues_exact_calm : machine.Throughout RunQueuesExact Scheduler.new calmEvents :=
  (run_queues_exact (machine.run_of_admitsAll Scheduler.new calmEvents (by decide +kernel))).mpr
    ((machine.restrict NoPreemption).run_of_admitsAll Scheduler.new calmEvents
      (by decide +kernel))

def staleEvents : List Event :=
  [.init, .schedule, .createTask 0x1000 1 4096, .schedule, .blockTask 0, .blockTask 1]

/-- One removal leaves the second entry of the idle task: blocked, it is made running. -/
theorem blocked_task_made_running : ∃ s, machine.Run Scheduler.new staleEvents s ∧
    (s.tasks 0).map Task.state = some .blocked ∧ 0 ∈ s.queues.queues 0 ∧
    (s.schedule.2.tasks 0).map Task.state = some .running ∧
    ¬ RunQueuesExact s := by
  have hrun := machine.run_of_admitsAll Scheduler.new staleEvents (by decide +kernel)
  generalize hs : staleEvents.foldl machine.step Scheduler.new = s at hrun
  obtain ⟨hblocked, hmem, hrunning⟩ : (s.tasks 0).map Task.state = some .blocked ∧
      0 ∈ s.queues.queues 0 ∧ (s.schedule.2.tasks 0).map Task.state = some .running := by
    rw [← hs]
    decide +kernel
  refine ⟨s, hrun, hblocked, hmem, hrunning, fun hexact => ?_⟩
  obtain ⟨t, ht, hstate⟩ := Option.map_eq_some_iff.mp hblocked
  exact hexact.stopped 0 t ht (.inl hstate) 0 hmem

/-- Preemption or not, no call takes a runnable task off its queue, and what is on a queue is a
task of its priority. -/
theorem runnable_tasks_stay_queued {s : Scheduler} (hreach : machine.Reachable s) :
  (∀ i t, s.tasks i = some t → t.state.Runnable → i ∈ s.queues.queues t.priority) ∧
  ∀ p, ∀ i ∈ s.queues.queues p, ∃ t, s.tasks i = some t ∧ t.priority = p := by
  have hlisted := (sound_of_reachable hreach).listed
  refine ⟨fun i t ht hrun => hlisted.listed (view_task ht) hrun, fun p i hi => ?_⟩
  obtain ⟨st, hst⟩ := hlisted.entry hi
  obtain ⟨t, ht, -, hp⟩ := view_task_some hst
  exact ⟨t, ht, hp⟩

theorem runnable_tasks_stay_queued_stale : ∃ s, machine.Run Scheduler.new staleEvents s ∧
  ∀ p, ∀ i ∈ s.queues.queues p, ∃ t, s.tasks i = some t ∧ t.priority = p := by
  have hrun := machine.run_of_admitsAll Scheduler.new staleEvents (by decide +kernel)
  exact ⟨_, hrun, (runnable_tasks_stay_queued ⟨_, _, rfl, hrun⟩).2⟩

end Aeos.Tasks
