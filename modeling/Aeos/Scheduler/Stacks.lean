/-
# The stacks of tasks

`Task::new` puts the stack of task `id` at `0x4000_0000 + id * stack_size`, as if all
stacks had the size of this one.
-/

import Aeos.Scheduler.Model
import Mathlib.Order.CompletePartialOrder
import Mathlib.Order.Interval.Set.Disjoint

namespace Aeos.Tasks

open List Option

structure Stack where
  base : Nat
  size : Nat
  pointer : Nat

def Task.stack (t : Task) : Stack := ⟨t.stackBase, t.stackSize, t.context.sp⟩

namespace Stack

def range (k : Stack) : Set Nat := Set.Ico k.base (k.base + k.size)

def PointsInside (k : Stack) : Prop := k.base ≤ k.pointer ∧ k.pointer ≤ k.base + k.size

def place (id size : Nat) : Stack := (Task.new id 0 0 size).stack

lemma pointsInside_place_iff {id size : Nat} (hsize : size < usizeBound) :
  (place id size).PointsInside ↔ (place id size).base + size < usizeBound := by
  have hbase : (place id size).base < usizeBound := Nat.mod_lt _ (by decide)
  have hpointer : (place id size).pointer = ((place id size).base + size) % usizeBound := rfl
  have hend : (place id size).size = size := rfl
  rw [PointsInside, hpointer, hend]
  generalize (place id size).base = base at *
  by_cases hfits : base + size < usizeBound
  · rw [Nat.mod_eq_of_lt hfits]
    exact iff_of_true ⟨Nat.le_add_right _ _, le_rfl⟩ hfits
  rw [Nat.mod_eq_sub_mod (not_lt.mp hfits), Nat.mod_eq_of_lt (by omega)]
  exact iff_of_false (by omega) hfits

lemma disjoint_iff (k l : Stack) : Disjoint k.range l.range ↔
  k.size = 0 ∨ l.size = 0 ∨ k.base + k.size ≤ l.base ∨ l.base + l.size ≤ k.base := by
  rw [range, range, Set.Ico_disjoint_Ico]
  omega

end Stack

/-- The stacks of any two tasks are disjoint, and every task starts on its own. -/
structure StacksApart (s : Scheduler) : Prop where
  pointer : ∀ i t, s.tasks i = some t → t.stack.PointsInside
  disjoint : ∀ i j t u, i ≠ j → s.tasks i = some t → s.tasks j = some u →
    Disjoint t.stack.range u.stack.range

structure Creation where
  entry : Nat
  priority : Nat
  stackSize : Nat

/-- The scheduler after `init` and some calls of `create_task`. -/
def created (cs : List Creation) : Scheduler :=
  cs.foldl (fun s c => (s.createTask c.entry c.priority c.stackSize).2) Scheduler.new.init.2

/-- The stack sizes of the calls that succeed: up to 63 with a priority that exists. -/
def acceptedSizes (cs : List Creation) : List Nat :=
  ((cs.filter fun c => c.priority < maxPriority).map Creation.stackSize).take (maxTasks - 1)

/-- The address `0x4000_0000 + id * size` as a 64-bit number. -/
def startOf (id size : Nat) : Nat := (0x40000000 + id * size) % 2 ^ 64

/-- The sizes of the tasks 1, 2 and so on: a stack of `a` bytes at `startOf id a` ends below
`2 ^ 64`, and of two stacks that are not empty one ends where the other starts, or before. -/
structure SizesFit (sizes : List Nat) : Prop where
  ends : ∀ k a, sizes[k]? = some a → startOf (k + 1) a + a < 2 ^ 64
  apart : ∀ k l a b, k < l → sizes[k]? = some a → sizes[l]? = some b → a ≠ 0 → b ≠ 0 →
    startOf (k + 1) a + a ≤ startOf (l + 1) b ∨ startOf (l + 1) b + b ≤ startOf (k + 1) a

/-! ## Slots in the order of the calls -/

lemma acceptedSizes_snoc (cs : List Creation) (c : Creation) : acceptedSizes (cs ++ [c]) =
    if c.priority < maxPriority ∧ (acceptedSizes cs).length + 1 < maxTasks then
      acceptedSizes cs ++ [c.stackSize] else acceptedSizes cs := by
  unfold acceptedSizes
  rw [filter_append, map_append]
  generalize (cs.filter fun c => c.priority < maxPriority).map Creation.stackSize = sizes
  by_cases hprio : c.priority < maxPriority
  · rw [filter_cons_of_pos (by simpa using hprio), filter_nil, map_singleton]
    rcases Nat.lt_or_ge sizes.length (maxTasks - 1) with hroom | hfull
    · have hlength : (sizes ++ [c.stackSize]).length ≤ maxTasks - 1 := by
        rw [length_append]
        exact hroom
      rw [take_of_length_le hroom.le, take_of_length_le hlength,
        if_pos ⟨hprio, Nat.add_lt_of_lt_sub hroom⟩]
    have hfirst : (sizes.take (maxTasks - 1)).length + 1 = maxTasks := by
      rw [length_take_of_le hfull]
      rfl
    rw [take_append_of_le_length hfull, hfirst, if_neg fun hboth => lt_irrefl _ hboth.2]
  rw [filter_cons_of_neg (by simpa using hprio), filter_nil, map_nil,
    append_nil, if_neg fun hboth => hprio hboth.1]

structure Placed (s : Scheduler) (sizes : List Nat) : Prop where
  initialized : s.initialized = true
  idle : (s.tasks 0).map Task.stack = some ⟨0, 0, 0⟩
  tasks : ∀ k, (s.tasks (k + 1)).map Task.stack = sizes[k]?.map (Stack.place (k + 1))
  room : sizes.length < maxTasks

namespace Placed

variable {s : Scheduler} {sizes : List Nat}

lemma findFreeSlot (h : Placed s sizes) :
  s.findFreeSlot = if sizes.length + 1 < maxTasks then some (sizes.length + 1) else none := by
  have hused : ∀ i, (s.tasks i).isNone = decide (sizes.length < i) := by
    intro i
    cases i with
    | zero => simpa using congrArg Option.isNone h.idle
    | succ k =>
      have hk := congrArg Option.isNone (h.tasks k)
      simp only [isNone_map] at hk
      rw [hk, Bool.eq_iff_iff, isNone_iff_eq_none, List.getElem?_eq_none_iff,
        decide_eq_true_iff]
      exact Nat.lt_add_one_iff.symm
  unfold Scheduler.findFreeSlot
  simp only [hused]
  split_ifs with hroom
  · refine List.find?_range_eq_some.mpr ⟨by simp, mem_range.mpr hroom, fun j hj => ?_⟩
    simpa using Nat.lt_succ_iff.mp hj
  refine List.find?_range_eq_none.mpr fun j hj => ?_
  simp
  omega

lemma createTask (h : Placed s sizes) (c : Creation) :
  Placed (s.createTask c.entry c.priority c.stackSize).2
    (if c.priority < maxPriority ∧ sizes.length + 1 < maxTasks then sizes ++ [c.stackSize]
      else sizes) := by
  unfold Scheduler.createTask
  rw [if_neg (by simp [h.initialized]), h.findFreeSlot]
  by_cases hprio : c.priority < maxPriority
  · rw [if_neg (not_le.mpr hprio)]
    by_cases hroom : sizes.length + 1 < maxTasks
    · rw [if_pos hroom, if_pos ⟨hprio, hroom⟩]
      dsimp only [Scheduler.setTask]
      refine ⟨h.initialized, ?_, fun k => ?_, by simpa using hroom⟩
      · dsimp only
        rw [Function.update_of_ne (Nat.succ_ne_zero _).symm, h.idle]
      dsimp only
      by_cases hk : k = sizes.length
      · subst hk
        rw [List.getElem?_concat_length, Function.update_self]
        rfl
      have hsame : (sizes ++ [c.stackSize])[k]? = sizes[k]? := by
        rcases Nat.lt_or_gt_of_ne hk with hlt | hgt
        · exact List.getElem?_append_left hlt
        · rw [List.getElem?_eq_none (by simp; omega), List.getElem?_eq_none (by omega)]
      rw [hsame, ← h.tasks k, Function.update_of_ne (mt Nat.succ.inj hk)]
    rw [if_neg hroom, if_neg fun hboth => hroom hboth.2]
    exact h
  rw [if_pos (not_lt.mp hprio), if_neg fun hboth => hprio hboth.1]
  exact h

lemma created (cs : List Creation) : Placed (created cs) (acceptedSizes cs) := by
  induction cs using List.reverseRecOn with
  | nil =>
    refine ⟨rfl, rfl, fun k => ?_, by decide⟩
    rfl
  | append_singleton cs c ih =>
    rw [Tasks.created, foldl_append, acceptedSizes_snoc]
    exact ih.createTask c

lemma stacksApart_iff (h : Placed s sizes) (hsizes : ∀ a ∈ sizes, a < usizeBound) :
  StacksApart s ↔ SizesFit sizes := by
  have hsome : ∀ k t, s.tasks (k + 1) = some t →
      ∃ a, sizes[k]? = some a ∧ t.stack = Stack.place (k + 1) a := by
    intro k t ht
    have hk := h.tasks k
    rw [ht] at hk
    obtain ⟨a, ha, heq⟩ := map_eq_some_iff.mp hk.symm
    exact ⟨a, ha, heq.symm⟩
  have htask : ∀ k a, sizes[k]? = some a →
      ∃ t, s.tasks (k + 1) = some t ∧ t.stack = Stack.place (k + 1) a := by
    intro k a ha
    have hk := h.tasks k
    rw [ha] at hk
    exact map_eq_some_iff.mp hk
  have hidle : ∀ t, s.tasks 0 = some t → t.stack = ⟨0, 0, 0⟩ := by
    intro t ht
    have h0 := h.idle
    rw [ht] at h0
    exact some.inj h0
  constructor
  · intro hapart
    refine ⟨fun k a ha => ?_, fun k l a b hkl ha hb => ?_⟩
    · obtain ⟨t, ht, heq⟩ := htask k a ha
      have hpoint := hapart.pointer _ t ht
      rw [heq] at hpoint
      exact (Stack.pointsInside_place_iff (hsizes a (List.mem_of_getElem? ha))).mp hpoint
    obtain ⟨t, ht, heq⟩ := htask k a ha
    obtain ⟨u, hu, heq'⟩ := htask l b hb
    have hdisjoint := hapart.disjoint _ _ t u (by omega) ht hu
    rw [heq, heq'] at hdisjoint
    intro ha hb
    exact ((Stack.disjoint_iff _ _).mp hdisjoint).resolve_left ha |>.resolve_left hb
  intro hfit
  have hempty : ∀ k : Stack, Disjoint (Stack.range ⟨0, 0, 0⟩) k.range := by
    intro k
    exact (Stack.disjoint_iff _ _).mpr (.inl rfl)
  have hpair : ∀ k l a b, k < l → sizes[k]? = some a → sizes[l]? = some b →
      Disjoint (Stack.place (k + 1) a).range (Stack.place (l + 1) b).range := by
    intro k l a b hkl ha hb
    rw [Stack.disjoint_iff, or_iff_not_imp_left]
    refine fun hne => or_iff_not_imp_left.mpr fun hne' => ?_
    exact hfit.apart k l a b hkl ha hb hne hne'
  refine ⟨fun i t ht => ?_, fun i j t u hij ht hu => ?_⟩
  · cases i with
    | zero =>
      rw [hidle t ht]
      exact ⟨le_rfl, le_rfl⟩
    | succ k =>
      obtain ⟨a, ha, heq⟩ := hsome k t ht
      rw [heq]
      exact (Stack.pointsInside_place_iff (hsizes a (List.mem_of_getElem? ha))).mpr
        (hfit.ends k a ha)
  cases i with
  | zero =>
    rw [hidle t ht]
    exact hempty _
  | succ k =>
    cases j with
    | zero =>
      rw [hidle u hu]
      exact (hempty _).symm
    | succ l =>
      obtain ⟨a, ha, heq⟩ := hsome k t ht
      obtain ⟨b, hb, heq'⟩ := hsome l u hu
      rw [heq, heq']
      rcases Nat.lt_or_gt_of_ne (mt (congrArg (· + 1)) hij) with hlt | hgt
      · exact hpair k l a b hlt ha hb
      · exact (hpair l k b a hgt hb ha).symm

end Placed

/-- After any calls of `create_task`, the stacks are apart exactly if the sizes of the accepted
calls fit together. -/
theorem task_stacks_apart_iff (cs : List Creation) (hsizes : ∀ c ∈ cs, c.stackSize < usizeBound) :
    StacksApart (created cs) ↔ SizesFit (acceptedSizes cs) := by
  refine (Placed.created cs).stacksApart_iff fun a ha => ?_
  obtain ⟨c, hc, rfl⟩ := List.mem_map.mp (mem_of_mem_take ha)
  exact hsizes c (mem_filter.mp hc).1

/-- A larger stack for a later task: task 2 starts past the end of task 1. -/
theorem task_stacks_apart_growing : StacksApart (created [⟨0, 0, 0x1000⟩, ⟨0, 0, 0x2000⟩]) := by
  refine (task_stacks_apart_iff _ (by decide)).mpr ⟨fun k a ha => ?_,
    fun k l a b hkl ha hb _ _ => ?_⟩
  · match k, ha with
    | 0, rfl => decide
    | 1, rfl => decide
  · have hl : l < 2 := (List.getElem?_eq_some_iff.mp hb).1
    obtain ⟨rfl, rfl⟩ : k = 0 ∧ l = 1 := by omega
    cases ha
    cases hb
    decide

/-- Task 1 has the 8 KiB at `0x4000_2000`; task 2 is put on their first half. -/
theorem task_stacks_overlap : ¬ StacksApart (created [⟨0, 0, 0x2000⟩, ⟨0, 0, 0x1000⟩]) := by
  intro hapart
  have hdisjoint := hapart.disjoint 1 2 _ _ (by decide) rfl rfl
  rw [Stack.disjoint_iff] at hdisjoint
  revert hdisjoint
  decide

end Aeos.Tasks
