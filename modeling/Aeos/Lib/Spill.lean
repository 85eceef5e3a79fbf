/-
# Spilling registers

Storing registers to the slots of a frame and filling them back from it. A frame
is a list of pairs, register and slot; `cell` says which memory cell a slot is.
-/

import Mathlib.Algebra.Group.Nat.Defs
import Mathlib.Data.List.Nodup

namespace Aeos.Lib

open List Function

section
variable {R S A W : Type*} {cell : S → A} {frame : List (R × S)} {x : R → W} {m : A → W}

/-- Each register of the frame is stored to its slot, in order. -/
def spill [DecidableEq A] (cell : S → A) (x : R → W) : List (R × S) → (A → W) → A → W
  | [], m => m
  | p :: frame, m => spill cell x frame (update m (cell p.2) (x p.1))

/-- Each register of the frame is loaded from its slot, in order. -/
def fill [DecidableEq R] (cell : S → A) (m : A → W) : List (R × S) → (R → W) → R → W
  | [], x => x
  | p :: frame, x => fill cell m frame (update x p.1 (m (cell p.2)))

lemma spill_outside [DecidableEq A] {a : A} (ha : ∀ p ∈ frame, cell p.2 ≠ a) :
  spill cell x frame m a = m a := by
  induction frame generalizing m with
  | nil => rfl
  | cons q frame ih =>
    obtain ⟨hq, hrest⟩ := forall_mem_cons.mp ha
    rw [spill, ih hrest, update_of_ne (Ne.symm hq)]

variable {p : R × S}

/-- A slot holds its register, when no two slots of the frame are one cell. -/
lemma spill_slot_of_nodup [DecidableEq A] (hcells : (frame.map fun p => cell p.2).Nodup)
    (hp : p ∈ frame) : spill cell x frame m (cell p.2) = x p.1 := by
  induction frame generalizing m with
  | nil => cases hp
  | cons q frame ih =>
    obtain ⟨hq, hrest⟩ := nodup_cons.mp hcells
    rcases mem_cons.mp hp with rfl | hp
    · rw [spill, spill_outside, update_self]
      exact fun q hq' heq => hq (mem_map.mpr ⟨q, hq', heq⟩)
    · rw [spill, ih hrest hp]

lemma spill_slot [DecidableEq A] (hcell : Function.Injective cell)
  (hslots : (frame.map Prod.snd).Nodup) (hp : p ∈ frame) :
  spill cell x frame m (cell p.2) = x p.1 := by
  apply spill_slot_of_nodup _ hp
  have hmap := hslots.map hcell
  rwa [map_map] at hmap

lemma fill_outside [DecidableEq R] {r : R} (hr : r ∉ frame.map Prod.fst) :
  fill cell m frame x r = x r := by
  induction frame generalizing x with
  | nil => rfl
  | cons q frame ih =>
    obtain ⟨hq, hrest⟩ := not_or.mp (mt mem_cons.mpr hr)
    rw [fill, ih hrest, update_of_ne hq]

variable (hregs : (frame.map Prod.fst).Nodup)
include hregs

lemma fill_slot [DecidableEq R] (hp : p ∈ frame) : fill cell m frame x p.1 = m (cell p.2) := by
  induction frame generalizing x with
  | nil => cases hp
  | cons q frame ih =>
    obtain ⟨hq, hrest⟩ := nodup_cons.mp hregs
    rcases mem_cons.mp hp with rfl | hp
    · rw [fill, fill_outside hq, update_self]
    · rw [fill, ih hrest hp]

/-- If the frame holds the values of `y`, filling from it makes the registers those of `y`. -/
lemma fill_eq [DecidableEq R] {y : R → W} (hframe : ∀ p ∈ frame, m (cell p.2) = y p.1)
    (hothers : ∀ r, r ∉ frame.map Prod.fst → x r = y r) : fill cell m frame x = y := by
  funext r
  by_cases hr : r ∈ frame.map Prod.fst
  · obtain ⟨p, hp, rfl⟩ := mem_map.mp hr
    rw [fill_slot hregs hp, hframe p hp]
  · rw [fill_outside hr, hothers r hr]

end

open BitVec
variable {m m' : BitVec 64 → BitVec 64} {a w : BitVec 64} {ws vs : List (BitVec 64)}

def Stacked (m : BitVec 64 → BitVec 64) (a : BitVec 64) : List (BitVec 64) → Prop
  | [] => True
  | w :: ws => m a = w ∧ Stacked m (a + 8) ws

variable (h : Stacked m a ws)
include h

lemma Stacked.congr
    (hmem : ∀ k < ws.length, m' (a + BitVec.ofNat 64 (8 * k)) = m (a + BitVec.ofNat 64 (8 * k))) :
  Stacked m' a ws := by
  induction ws generalizing a with
  | nil => trivial
  | cons w ws ih =>
    obtain ⟨hw, hrest⟩ := h
    constructor
    · have hzero := hmem 0 (by simp)
      rw [Nat.mul_zero, BitVec.add_zero] at hzero
      exact hzero.trans hw
    apply ih hrest
    intro k hk
    have hnext := hmem (k + 1) (by simpa using hk)
    rw [show 8 * (k + 1) = 8 + 8 * k by omega, ofNat_add, ← BitVec.add_assoc] at hnext
    exact hnext

lemma Stacked.update {b : BitVec 64} (v : BitVec 64)
    (hb : ∀ k < ws.length, a + BitVec.ofNat 64 (8 * k) ≠ b) :
  Stacked (Function.update m b v) a ws :=
  h.congr fun k hk => Function.update_of_ne (hb k hk) _ _

lemma Stacked.push (w : BitVec 64) (hlen : ws.length < 2 ^ 60) :
  Stacked (Function.update m (a - 8) w) (a - 8) (w :: ws) := by
  refine ⟨Function.update_self _ _ _, ?_⟩
  rw [BitVec.sub_add_cancel]
  apply h.update
  intro k hk heq
  have hnat := congrArg BitVec.toNat heq
  have h8 : BitVec.toNat (8 : BitVec 64) = 8 := rfl
  simp only [toNat_add, toNat_sub, toNat_ofNat, h8] at hnat
  omega

end Aeos.Lib
