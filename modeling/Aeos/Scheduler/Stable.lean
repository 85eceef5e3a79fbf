/-
# The run queues as one priority queue

Eight queues against one line of entries with their clamped priorities, in the order of
their `enqueue`.
-/

import Aeos.Scheduler.Model

namespace Aeos.Tasks

open Lib List

inductive QueueCall
  | enqueue (id priority : Nat)
  | dequeue
  | peek
  | remove (id priority : Nat)
  deriving DecidableEq

inductive Answer
  | nothing
  | task (id : Option Nat)
  | removed (ok : Bool)
  deriving DecidableEq

def PriorityQueue.call (q : PriorityQueue) : QueueCall → Answer × PriorityQueue
  | .enqueue id priority => (.nothing, q.enqueue id priority)
  | .dequeue => (.task q.dequeue.1, q.dequeue.2)
  | .peek => (.task q.peek, q)
  | .remove id priority => (.removed (q.removes id priority), q.remove id priority)

/-- Tasks with their clamped priorities, the earliest first. -/
abbrev Line := List (Nat × Nat)

def clamped (priority : Nat) : Nat := min priority (maxPriority - 1)

def Line.call (l : Line) : QueueCall → Answer × Line
  | .enqueue id priority => (.nothing, l ++ [(id, clamped priority)])
  | .dequeue =>
    match Levels.first l with
    | some x => (.task (some x.1), l.erase x)
    | none => (.task none, l)
  | .peek => (.task ((Levels.first l).map Prod.fst), l)
  | .remove id priority =>
    (.removed (l.contains (id, clamped priority)), l.erase (id, clamped priority))

/-- The answers to a sequence of calls, and the state after them. -/
def calls {σ : Type} (call : σ → QueueCall → Answer × σ) (s : σ) : List QueueCall → List Answer × σ
  | [] => ([], s)
  | c :: cs =>
    let rest := calls call (call s c).2 cs
    ((call s c).1 :: rest.1, rest.2)

/-- Entries that a call has added. -/
def QueueCall.added : QueueCall → Nat
  | .enqueue _ _ => 1
  | _ => 0

/-- Entries that a call with this answer has taken out. -/
def QueueCall.taken : QueueCall → Answer → Nat
  | .dequeue, .task (some _) => 1
  | .remove _ _, .removed true => 1
  | _, _ => 0

/-! ## The queues follow the line -/

structure Follows (l : Line) (q : PriorityQueue) : Prop where
  queues : q.queues = Levels.ofLine l
  level : ∀ x ∈ l, x.2 < maxPriority

namespace Follows

variable {l : Line} {q : PriorityQueue}

lemma totalTasks (h : Follows l q) : q.totalTasks = l.length := by
  rw [PriorityQueue.totalTasks, h.queues]
  exact Levels.sum_length_ofLine h.level

lemma clamped_lt (priority : Nat) : clamped priority < maxPriority := by
  unfold clamped maxPriority
  omega

lemma contains_ofLine (l : Line) (id p : Nat) :
  (Levels.ofLine l p).contains id = l.contains (id, p) := by
  simp [Levels.ofLine]

variable (h : Follows l q)
include h

lemma front_cases : Levels.first l = none ∧ q.peek = none ∧ q.dequeue = (none, q) ∨
  ∃ x ∈ l, Levels.first l = some x ∧ q.peek = some x.1 ∧
    q.dequeue = (some x.1, ⟨Levels.ofLine (l.erase x)⟩) := by
  unfold PriorityQueue.peek PriorityQueue.dequeue
  rw [h.queues]
  by_cases hl : l = []
  · subst hl
    have hempty : ∀ p < maxPriority, Levels.ofLine ([] : Line) p = [] := fun _ _ => rfl
    exact .inl ⟨rfl, Levels.front_eq_none_iff.mpr hempty, by rw [Levels.pop_eq_none hempty]⟩
  obtain ⟨x, hfirst⟩ := Levels.exists_first hl
  have hx : x ∈ l := List.mem_of_find?_eq_some hfirst
  refine .inr ⟨x, hx, hfirst, Levels.front_ofLine hfirst (h.level x hx), ?_⟩
  rw [Levels.pop_ofLine hfirst (h.level x hx)]

lemma erase (x : Nat × Nat) : Follows (l.erase x) ⟨Levels.ofLine (l.erase x)⟩ :=
  ⟨rfl, fun y hy => h.level y (List.mem_of_mem_erase hy)⟩

/-- Step lemma: the answers are the same, and the entries are accounted for. -/
lemma call (c : QueueCall) : (q.call c).1 = (l.call c).1 ∧ Follows (l.call c).2 (q.call c).2 ∧
    (l.call c).2.length + c.taken (l.call c).1 = l.length + c.added := by
  cases c with
  | enqueue id priority =>
    refine ⟨rfl, ⟨?_, ?_⟩, ?_⟩
    · show Levels.push q.queues (clamped priority) id = _
      rw [h.queues]
      exact Levels.push_ofLine l (clamped priority) id
    · intro x hx
      rcases mem_append.mp hx with hold | hnew
      · exact h.level x hold
      rw [mem_singleton.mp hnew]
      exact clamped_lt priority
    · simp [Line.call, QueueCall.taken, QueueCall.added]
  | dequeue =>
    rcases h.front_cases with ⟨hfirst, -, hcall⟩ | ⟨x, hx, hfirst, -, hcall⟩
    · simp only [PriorityQueue.call, Line.call, hcall, hfirst]
      exact ⟨trivial, h, rfl⟩
    simp only [PriorityQueue.call, Line.call, hcall, hfirst]
    refine ⟨trivial, h.erase x, ?_⟩
    rw [length_erase_of_mem hx]
    exact Nat.sub_add_cancel (length_pos_of_mem hx)
  | peek =>
    rcases h.front_cases with ⟨hfirst, hpeek, -⟩ | ⟨x, -, hfirst, hpeek, -⟩
    · simp only [PriorityQueue.call, Line.call, hpeek, hfirst]
      exact ⟨rfl, h, rfl⟩
    simp only [PriorityQueue.call, Line.call, hpeek, hfirst]
    exact ⟨rfl, h, rfl⟩
  | remove id priority =>
    have hremoves : q.removes id priority = l.contains (id, clamped priority) := by
      rw [PriorityQueue.removes, h.queues]
      exact contains_ofLine l id (clamped priority)
    have hremove : q.remove id priority = ⟨Levels.ofLine (l.erase (id, clamped priority))⟩ := by
      rw [PriorityQueue.remove, h.queues]
      exact congrArg _ (Levels.erase_ofLine l (clamped priority) id)
    simp only [PriorityQueue.call, Line.call, hremoves, hremove]
    refine ⟨trivial, h.erase _, ?_⟩
    by_cases hmem : (id, clamped priority) ∈ l
    · rw [contains_iff_mem.mpr hmem, length_erase_of_mem hmem]
      exact Nat.sub_add_cancel (length_pos_of_mem hmem)
    rw [erase_of_not_mem hmem, Bool.eq_false_iff.mpr (mt contains_iff_mem.mp hmem)]
    rfl

lemma calls (cs : List QueueCall) :
  let run := Tasks.calls PriorityQueue.call q cs
  let line := Tasks.calls Line.call l cs
  run.1 = line.1 ∧ Follows line.2 run.2 ∧
    line.2.length + (List.zipWith QueueCall.taken cs line.1).sum =
      l.length + (cs.map QueueCall.added).sum := by
  induction cs generalizing l q with
  | nil => exact ⟨rfl, h, rfl⟩
  | cons c cs ih =>
    obtain ⟨hanswer, hnext, hcount⟩ := h.call c
    obtain ⟨hanswers, hlast, hcounts⟩ := ih hnext
    simp only [Tasks.calls, zipWith_cons_cons, sum_cons, map_cons]
    refine ⟨by rw [hanswer, hanswers], hlast, ?_⟩
    omega

end Follows

/-- Any calls on a new priority queue answer as one line of entries does, and `total_tasks` is
what was enqueued less what was dequeued and removed. -/
theorem priority_queue_is_stable (cs : List QueueCall) :
  let run := calls PriorityQueue.call .new cs
  let line := calls Line.call [] cs
  run.1 = line.1 ∧ run.2.queues = Levels.ofLine line.2 ∧
    run.2.totalTasks + (List.zipWith QueueCall.taken cs run.1).sum =
      (cs.map QueueCall.added).sum := by
  have hnew : Follows [] .new := ⟨rfl, fun x hx => absurd hx not_mem_nil⟩
  obtain ⟨hanswers, hlast, hcount⟩ := hnew.calls cs
  refine ⟨hanswers, hlast.queues, ?_⟩
  rw [hlast.totalTasks, hanswers, hcount, length_nil, Nat.zero_add]

end Aeos.Tasks
