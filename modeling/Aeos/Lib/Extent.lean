/-
# Extents

Half-open ranges of block numbers, when two of them share no block, and removal
from an unordered array by moving its last element into the gap.
-/

import Mathlib.Algebra.GroupWithZero.Nat
import Mathlib.Algebra.Order.BigOperators.Group.List
import Mathlib.Algebra.Order.Group.Nat
import Mathlib.Order.Interval.Finset.Nat

namespace Aeos.Lib

open List Finset

/-- The blocks `start, …, start + count - 1`. -/
structure Extent where
  start : Nat
  count : Nat
  deriving DecidableEq

namespace Extent

def stop (e : Extent) : Nat := e.start + e.count

def Has (e : Extent) (s : Nat) : Prop := e.start ≤ s ∧ s < e.stop

instance (e : Extent) (s : Nat) : Decidable (e.Has s) := inferInstanceAs (Decidable (_ ∧ _))

def Apart (a b : Extent) : Prop := ∀ s, a.Has s → ¬ b.Has s

def Within (a b : Extent) : Prop := ∀ s, a.Has s → b.Has s

variable {a b e : Extent} {n : Nat}

lemma Apart.symm (h : a.Apart b) : b.Apart a := fun s hb ha => h s ha hb

lemma Apart.within {a' : Extent} (h : a.Apart b) (hin : a'.Within a) : a'.Apart b :=
  fun s hs => h s (hin s hs)

lemma apart_of_stop_le (h : a.stop ≤ b.start) : a.Apart b := by
  rintro s ⟨_, hs⟩ ⟨hs', _⟩
  omega

lemma Apart.pos_le (h : a.Apart b) (ha : 0 < a.count) (hb : 0 < b.count) :
  a.stop ≤ b.start ∨ b.stop ≤ a.start := by
  by_contra hnot
  have hmax : a.Has (max a.start b.start) ∧ b.Has (max a.start b.start) := by
    simp only [Has, stop] at hnot ⊢
    omega
  exact h _ hmax.1 hmax.2

def front (e : Extent) (n : Nat) : Extent := ⟨e.start, n⟩

def back (e : Extent) (n : Nat) : Extent := ⟨e.start + n, e.count - n⟩

section
variable (hn : n ≤ e.count)
include hn

lemma stop_back : (e.back n).stop = e.stop := by
  simp only [stop, back]
  omega

lemma front_within : (e.front n).Within e := by
  intro s
  simp only [Has, stop, front]
  omega

lemma back_within : (e.back n).Within e := by
  intro s
  simp only [Has, stop, back]
  omega

end

lemma front_apart_back (e : Extent) (n : Nat) : (e.front n).Apart (e.back n) :=
  apart_of_stop_le (Nat.le_refl (e.start + n))

lemma Has.front_or_back {s : Nat} (h : e.Has s) (n : Nat) :
  (e.front n).Has s ∨ (e.back n).Has s := by
  simp only [Has, stop, front, back] at h ⊢
  omega

variable {l : List Extent}

lemma countP_has_le_one (hapart : l.Pairwise Apart) (s : Nat) :
  l.countP (fun e => e.Has s) ≤ 1 := by
  induction l with
  | nil => exact Nat.zero_le _
  | cons e l ih =>
    obtain ⟨hhead, htail⟩ := List.pairwise_cons.mp hapart
    by_cases hs : e.Has s
    · have hrest : l.countP (fun e => e.Has s) = 0 := by
        refine countP_eq_zero.mpr fun f hf => ?_
        simpa using hhead f hf s hs
      simp [hs, hrest]
    · simpa [hs] using ih htail

/-- A set of blocks that a list of extents covers is no larger than the list. -/
lemma card_le_sum_count (l : List Extent) (blocks : Finset Nat)
  (hcover : ∀ s ∈ blocks, ∃ e ∈ l, e.Has s) : blocks.card ≤ (l.map count).sum := by
  induction l generalizing blocks with
  | nil =>
    have hnone : blocks = ∅ := by
      refine eq_empty_of_forall_notMem fun s hs => ?_
      obtain ⟨e, he, _⟩ := hcover s hs
      cases he
    simp [hnone]
  | cons e l ih =>
    -- Blocks of the first extent, and the rest.
    have hfirst : (blocks.filter fun s => e.Has s).card ≤ e.count := by
      have hsub : (blocks.filter fun s => e.Has s) ⊆ Finset.Ico e.start e.stop := by
        intro s hs
        exact mem_Ico.mpr (Finset.mem_filter.mp hs).2
      calc (blocks.filter fun s => e.Has s).card ≤ (Finset.Ico e.start e.stop).card :=
            card_le_card hsub
        _ = e.count := by rw [Nat.card_Ico, stop, Nat.add_sub_cancel_left]
    have hrest : (blocks.filter fun s => ¬ e.Has s).card ≤ (l.map count).sum := by
      refine ih _ fun s hs => ?_
      obtain ⟨hs, hnot⟩ := Finset.mem_filter.mp hs
      obtain ⟨f, hf, hhas⟩ := hcover s hs
      rcases List.mem_cons.mp hf with rfl | hf
      · exact absurd hhas hnot
      · exact ⟨f, hf, hhas⟩
    calc blocks.card
        = (blocks.filter fun s => e.Has s).card + (blocks.filter fun s => ¬ e.Has s).card :=
          (card_filter_add_card_filter_not _).symm
      _ ≤ e.count + (l.map count).sum := Nat.add_le_add hfirst hrest
      _ = ((e :: l).map count).sum := by simp

/-- A range of blocks that extents of at most `m` blocks each cover is bounded by
their number. -/
lemma sub_le_length_mul {a b m : Nat}
  (hcover : ∀ s, a ≤ s → s < b → ∃ e ∈ l, e.Has s) (hcount : ∀ e ∈ l, e.count ≤ m) :
  b - a ≤ l.length * m := by
  calc b - a = (Finset.Ico a b).card := (Nat.card_Ico a b).symm
    _ ≤ (l.map count).sum := by
        refine card_le_sum_count l _ fun s hs => ?_
        obtain ⟨hlo, hhi⟩ := mem_Ico.mp hs
        exact hcover s hlo hhi
    _ ≤ (l.map count).length * m := by
        refine List.sum_le_card_nsmul _ _ fun c hc => ?_
        obtain ⟨e, he, rfl⟩ := List.mem_map.mp hc
        exact hcount e he
    _ = l.length * m := by rw [length_map]

end Extent

/-- Overwrite element `i` by the last one and drop the last one. -/
def swapRemove {α : Type*} (l : List α) (i : Nat) : List α :=
  match l.getLast? with
  | none => l
  | some z => (l.set i z).dropLast

lemma swapRemove_perm {α : Type*} (before : List α) (x : α) (after : List α) :
  (swapRemove (before ++ x :: after) before.length).Perm (before ++ after) := by
  induction after using List.reverseRecOn with
  | nil => simp [swapRemove]
  | append_singleton after z _ =>
    have hlast : (before ++ x :: (after ++ [z])).getLast? = some z := by
      rw [← cons_append, ← append_assoc]
      exact List.getLast?_concat
    have hset : (before ++ x :: (after ++ [z])).set before.length z =
        (before ++ z :: after) ++ [z] := by
      simp
    have hswap : swapRemove (before ++ x :: (after ++ [z])) before.length =
        before ++ z :: after := by
      rw [swapRemove, hlast]
      dsimp only
      rw [hset, dropLast_concat]
    rw [hswap]
    exact List.Perm.append_left before (perm_append_singleton z after).symm

end Aeos.Lib
