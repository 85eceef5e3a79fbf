/-
# Ring buffers

A list kept in an array of fixed size: it starts at `head`, has `count` entries and goes on at
the start of the array when it reaches the end. A ring that keeps no count leaves one cell free;
a ring that nothing is taken from is overwritten, and has the latest entries.
-/

import Mathlib.Data.List.Range
import Mathlib.Data.Nat.ModEq

namespace Aeos.Lib

open List Function

section
variable {α : Type*} {n : Nat}

/-- The `count` entries from `head` on, in an array of `n` cells. -/
def ringList (n : Nat) (cells : Nat → α) (head count : Nat) : List α :=
  (List.range count).map fun i => cells ((head + i) % n)

/-- The indices of a ring agree with each other. -/
structure RingIndices (n head tail count : Nat) : Prop where
  head_lt : head < n
  count_le : count ≤ n
  tail_eq : tail = (head + count) % n

variable {cells : Nat → α} {head tail count : Nat}

@[simp]
lemma length_ringList : (ringList n cells head count).length = count := by
  simp [ringList]

lemma RingIndices.empty (hn : 0 < n) : RingIndices n 0 0 0 :=
  ⟨hn, Nat.zero_le n, (Nat.zero_mod n).symm⟩

lemma add_mod_ne {i j : Nat} (hi : i < n) (hj : j < n) (hne : i ≠ j) :
  (head + i) % n ≠ (head + j) % n := by
  intro heq
  exact hne (Nat.ModEq.eq_of_lt_of_lt (Nat.ModEq.add_left_cancel' head heq) hi hj)

section
variable (h : RingIndices n head tail count)
include h

lemma RingIndices.push (hroom : count < n) : RingIndices n head ((tail + 1) % n) (count + 1) := by
  refine ⟨h.head_lt, hroom, ?_⟩
  rw [h.tail_eq, Nat.mod_add_mod, Nat.add_assoc]

lemma ringList_push (hroom : count < n) (a : α) :
  ringList n (update cells tail a) head (count + 1) = ringList n cells head count ++ [a] := by
  rw [ringList, range_succ, map_append, map_singleton, ← h.tail_eq,
    update_self]
  congr 1
  apply map_congr_left
  intro i hi
  have hi := mem_range.mp hi
  rw [h.tail_eq, update_of_ne (add_mod_ne (hi.trans hroom) hroom (by omega))]

lemma RingIndices.pop (hsome : count ≠ 0) : RingIndices n ((head + 1) % n) tail (count - 1) := by
  refine ⟨Nat.mod_lt _ (Nat.zero_lt_of_lt h.head_lt), (Nat.sub_le count 1).trans h.count_le, ?_⟩
  rw [h.tail_eq, Nat.mod_add_mod]
  congr 1
  omega

lemma ringList_pop (hsome : count ≠ 0) : ringList n cells head count =
    cells head :: ringList n cells ((head + 1) % n) (count - 1) := by
  obtain ⟨k, rfl⟩ := Nat.exists_eq_succ_of_ne_zero hsome
  rw [ringList, range_succ_eq_map, map_cons, map_map, Nat.add_zero,
    Nat.mod_eq_of_lt h.head_lt]
  congr 1
  apply map_congr_left
  intro i _
  show cells ((head + (i + 1)) % n) = cells (((head + 1) % n + i) % n)
  rw [Nat.mod_add_mod, Nat.add_assoc, Nat.add_comm 1 i]

end

/-! ## Rings without a count -/

/-- The number of entries between the indices, of which there are fewer than cells. -/
def ringCount (n head tail : Nat) : Nat := (tail + n - head) % n

lemma RingIndices.of_lt (hhead : head < n) (htail : tail < n) :
  RingIndices n head tail (ringCount n head tail) := by
  refine ⟨hhead, (Nat.mod_lt _ (Nat.zero_lt_of_lt hhead)).le, ?_⟩
  have hsum : head + (tail + n - head) = tail + n := by omega
  rw [ringCount, Nat.add_mod_mod, hsum, Nat.add_mod_right, Nat.mod_eq_of_lt htail]

lemma ringCount_lt (hn : 0 < n) : ringCount n head tail < n := Nat.mod_lt _ hn

lemma RingIndices.count_eq (h : RingIndices n head tail count) (hlt : count < n) :
  count = ringCount n head tail := by
  have htail : tail < n := by
    rw [h.tail_eq]
    exact Nat.mod_lt _ (Nat.zero_lt_of_lt h.head_lt)
  have hother := RingIndices.of_lt h.head_lt htail
  by_contra hne
  apply add_mod_ne hlt (ringCount_lt (Nat.zero_lt_of_lt hlt)) hne
  rw [← h.tail_eq, ← hother.tail_eq]

section
variable (hhead : head < n)
include hhead

lemma ringCount_eq_zero (htail : tail < n) : ringCount n head tail = 0 ↔ head = tail := by
  have h := RingIndices.of_lt hhead htail
  constructor
  · intro hzero
    rw [h.tail_eq, hzero, Nat.add_zero, Nat.mod_eq_of_lt hhead]
  rintro rfl
  rw [ringCount, Nat.add_sub_cancel_left, Nat.mod_self]

/-- The next index is the head exactly when all cells but one are in use. -/
lemma ringCount_full (htail : tail < n) :
  (tail + 1) % n = head ↔ ringCount n head tail = n - 1 := by
  have h := RingIndices.of_lt hhead htail
  have hlt : ringCount n head tail < n := ringCount_lt (Nat.zero_lt_of_lt hhead)
  have hnext : (tail + 1) % n = (head + (ringCount n head tail + 1)) % n := by
    conv_lhs => rw [h.tail_eq]
    rw [Nat.mod_add_mod, Nat.add_assoc]
  constructor
  · intro hfull
    by_contra hne
    have hless : ringCount n head tail + 1 < n := by omega
    apply add_mod_ne hless (Nat.zero_lt_of_lt hhead) (Nat.succ_ne_zero _)
    rw [← hnext, hfull, Nat.add_zero, Nat.mod_eq_of_lt hhead]
  intro hfull
  rw [hnext, hfull, Nat.sub_add_cancel (by omega), Nat.add_mod_right, Nat.mod_eq_of_lt hhead]

lemma ringCount_push (htail : tail < n) (hroom : (tail + 1) % n ≠ head) :
  ringCount n head ((tail + 1) % n) = ringCount n head tail + 1 := by
  have hlt : ringCount n head tail < n := ringCount_lt (Nat.zero_lt_of_lt hhead)
  have hnot := mt (ringCount_full hhead htail).mpr hroom
  have hpush := (RingIndices.of_lt hhead htail).push hlt
  exact (hpush.count_eq (by omega)).symm

lemma ringCount_pop (htail : tail < n) (hsome : head ≠ tail) :
  ringCount n ((head + 1) % n) tail = ringCount n head tail - 1 := by
  have hlt : ringCount n head tail < n := ringCount_lt (Nat.zero_lt_of_lt hhead)
  have hpop := (RingIndices.of_lt hhead htail).pop (mt (ringCount_eq_zero hhead htail).mp hsome)
  exact (hpop.count_eq (by omega)).symm

end

lemma map_range_update {β : Type*} (f : α → β) (cells : Nat → α) (count : Nat) (a : α) :
  ((List.range (count + 1)).map fun i => f (update cells count a i)) =
    ((List.range count).map fun i => f (cells i)) ++ [f a] := by
  rw [range_succ, map_append, map_singleton, update_self]
  congr 1
  apply map_congr_left
  intro i hi
  rw [update_of_ne (mem_range.mp hi).ne]

/-- A ring whose entry number `k` goes to cell `k % n` has kept the last `n` of them. -/
def KeepsLatest (n : Nat) (cells : Nat → α) (log : List α) : Prop :=
  ∀ k a, log[k]? = some a → log.length ≤ k + n → cells (k % n) = a

lemma KeepsLatest.nil : KeepsLatest n cells [] := by
  intro k a hk
  cases hk

lemma KeepsLatest.push {log : List α} (h : KeepsLatest n cells log) (a : α) :
  KeepsLatest n (update cells (log.length % n) a) (log ++ [a]) := by
  intro k b hk hlast
  rw [length_append, length_singleton] at hlast
  rcases Nat.lt_or_ge k log.length with hold | hnew
  · rw [List.getElem?_append_left hold] at hk
    rw [update_of_ne]
    · exact h k b hk (by omega)
    intro heq
    have hdvd := (Nat.modEq_iff_dvd' hold.le).mp heq
    exact absurd (Nat.le_of_dvd (by omega) hdvd) (by omega)
  rw [List.getElem?_append_right hnew, List.getElem?_singleton] at hk
  split_ifs at hk with hzero
  obtain rfl : k = log.length := by omega
  rw [update_self]
  exact Option.some.inj hk

end

/-! ## Cyclic search -/

/-- First index among `from + 1, …, from + n` (modulo `n`) that satisfies `p`. -/
def cyclicFind (n : Nat) (p : Nat → Bool) (start : Nat) : Option Nat :=
  ((List.range n).map fun i => (start + (i + 1)) % n).find? p

/-- How many positions a cyclic scan from `start` inspects to reach `target`, with a full turn
back to `start` itself. -/
def cyclicGap (n start target : Nat) : Nat :=
  if start < target then target - start else target + n - start

variable {n start target hit : Nat} {p : Nat → Bool}

lemma cyclicGap_pos (target : Nat) (hstart : start < n) : 0 < cyclicGap n start target := by
  unfold cyclicGap
  split <;> omega

lemma cyclicGap_le (start : Nat) (htarget : target < n) : cyclicGap n start target ≤ n := by
  unfold cyclicGap
  split <;> omega

lemma cyclicGap_lt (htarget : target < n) (hne : start ≠ target) :
  cyclicGap n start target < n := by
  unfold cyclicGap
  split <;> omega

section
variable (hstart : start < n)
include hstart

lemma cyclicGap_add_mod {i : Nat} (hpos : 0 < i) (hle : i ≤ n) :
  cyclicGap n start ((start + i) % n) = i := by
  unfold cyclicGap
  by_cases hwrap : start + i < n
  · rw [Nat.mod_eq_of_lt hwrap]
    split <;> omega
  have hmod : (start + i) % n = start + i - n := by
    rw [Nat.mod_eq_sub_mod (by omega), Nat.mod_eq_of_lt (by omega)]
  split <;> omega

lemma add_cyclicGap_mod (htarget : target < n) :
  (start + cyclicGap n start target) % n = target := by
  unfold cyclicGap
  split
  · rw [Nat.add_sub_cancel' (by omega), Nat.mod_eq_of_lt htarget]
  · rw [Nat.add_sub_cancel' (by omega), Nat.add_mod_right, Nat.mod_eq_of_lt htarget]

/-- Moving the starting point forward along the scan shortens the gap by exactly
the distance moved. -/
lemma cyclicGap_of_between {mid : Nat} (hmid : mid < n) (htarget : target < n)
    (hbefore : cyclicGap n start mid < cyclicGap n start target) :
  cyclicGap n mid target = cyclicGap n start target - cyclicGap n start mid := by
  unfold cyclicGap at *
  split_ifs at * <;> omega

end

lemma cyclicFind_some (hn : start < n) (hfind : cyclicFind n p start = some hit) :
  hit < n ∧ p hit = true := by
  have hmem := List.mem_of_find?_eq_some hfind
  obtain ⟨i, _, rfl⟩ := mem_map.mp hmem
  exact ⟨Nat.mod_lt _ (by omega), List.find?_some hfind⟩

variable (hstart : start < n)
include hstart

lemma cyclicGap_lt_of_cyclicFind (htarget : target < n)
    (hfind : cyclicFind n p start = some hit) (hp : p target = true) (hne : target ≠ hit) :
  cyclicGap n start hit < cyclicGap n start target := by
  obtain ⟨_, before, after, hsplit, hbefore⟩ := List.find?_eq_some_iff_append.mp hfind
  -- The hit is the `before.length`-th position of the scan, and every earlier one fails `p`.
  have hlen := congrArg List.length hsplit
  simp only [length_map, length_range, length_append, length_cons] at hlen
  have hget := congrArg (fun l : List Nat => l[before.length]?) hsplit
  simp only [List.getElem?_map, List.getElem?_append_right (Nat.le_refl _), Nat.sub_self,
    List.getElem?_cons_zero,
    List.getElem?_range (show before.length < n by omega), Option.map_some,
    Option.some.injEq] at hget
  have hhit : cyclicGap n start hit = before.length + 1 := by
    rw [← hget]
    exact cyclicGap_add_mod hstart (by omega) (by omega)
  by_contra hle
  have hpos := cyclicGap_pos target hstart
  have hgap : cyclicGap n start target - 1 < before.length := by
    have hdiff : cyclicGap n start target ≠ cyclicGap n start hit := by
      intro heq
      apply hne
      have hhitlt := (cyclicFind_some hstart hfind).1
      rw [← add_cyclicGap_mod hstart htarget, heq, add_cyclicGap_mod hstart hhitlt]
    omega
  have hgetTarget := congrArg (fun l : List Nat => l[cyclicGap n start target - 1]?) hsplit
  simp only [List.getElem?_map,
    List.getElem?_range (show cyclicGap n start target - 1 < n by omega), Option.map_some,
    List.getElem?_append_left hgap] at hgetTarget
  rw [Nat.sub_add_cancel hpos, add_cyclicGap_mod hstart htarget] at hgetTarget
  have hmem := List.mem_of_getElem? hgetTarget.symm
  have hfalse := hbefore target hmem
  simp [hp] at hfalse

/-- Dispatching to the hit brings every other qualifying position strictly
closer to the front of the scan. -/
lemma cyclicGap_decreases (htarget : target < n) (hfind : cyclicFind n p start = some hit)
    (hp : p target = true) (hne : target ≠ hit) :
  cyclicGap n hit target < cyclicGap n start target := by
  have hlt := cyclicGap_lt_of_cyclicFind hstart htarget hfind hp hne
  have hhit := (cyclicFind_some hstart hfind).1
  rw [cyclicGap_of_between hstart hhit htarget hlt]
  have hpos := cyclicGap_pos hit hstart
  omega

lemma cyclicFind_eq_none_iff : cyclicFind n p start = none ↔ ∀ i < n, p i = false := by
  constructor
  · intro hnone i hi
    rw [cyclicFind, List.find?_eq_none] at hnone
    have hgap := cyclicGap_pos i hstart
    have hmem : i ∈ (List.range n).map fun k => (start + (k + 1)) % n := by
      refine mem_map.mpr ⟨cyclicGap n start i - 1, ?_, ?_⟩
      · have hle := cyclicGap_le start hi
        exact mem_range.mpr (by omega)
      · rw [Nat.sub_add_cancel hgap, add_cyclicGap_mod hstart hi]
    simpa using hnone i hmem
  intro hall
  rw [cyclicFind, List.find?_eq_none]
  intro x hx
  obtain ⟨k, _, rfl⟩ := mem_map.mp hx
  simp [hall _ (Nat.mod_lt _ (by omega))]

end Aeos.Lib
