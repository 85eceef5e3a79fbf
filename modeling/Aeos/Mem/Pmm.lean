/-
# Memory map and physical page allocator

The constants of `boot/aarch64/memory.h`, `heap.c` and `vmm.h`, and the bitmap allocator of `pmm.c`.
Addresses are natural numbers, reduced modulo `2 ^ 64` wherever the source can wrap; a frame number
is relative to `RAM_START`. The functions are irreducible: their loops run over the whole of RAM.
-/

import Mathlib.Algebra.Group.Nat.Defs
import Mathlib.Data.List.Basic
import Mathlib.Data.Nat.Basic

namespace Aeos.Mem

/-- One past the largest `uintptr_t` or `size_t`. -/
def wordSize : Nat := 2 ^ 64

def pageSize : Nat := 4096

def kernelBase : Nat := 0x40080000

def ramStart : Nat := 0x40000000

def ramSize : Nat := 128 * 1024 * 1024

def ramEnd : Nat := ramStart + ramSize

def heapStart : Nat := kernelBase + 16 * 1024 * 1024

def heapSize : Nat := 16 * 1024 * 1024

def heapEnd : Nat := heapStart + heapSize

def userVaBase : Nat := 0x8000000000

def userVaStack : Nat := userVaBase + 0x200000

def Overlaps (a n b m : Nat) : Prop :=
  ∃ x, a ≤ x ∧ x < a + n ∧ b ≤ x ∧ x < b + m

/-! ## Physical page allocator -/

/-- Frames covered by the bitmap, `RAM_SIZE / PAGE_SIZE`. -/
def totalFrames : Nat := ramSize / pageSize

def physToFrame (addr : Nat) : Nat :=
  (addr + wordSize - ramStart) % wordSize / pageSize

def frameToPhys (frame : Nat) : Nat := frame * pageSize + ramStart

structure Pmm where
  /-- `pmm_test_bit`: the frame is in use. -/
  bitmap : Nat → Bool
  freeCount : Nat

def fillRange (bitmap : Nat → Bool) (first count : Nat) (used : Bool) : Nat → Bool :=
  fun f => if first ≤ f ∧ f < first + count then used else bitmap f

def Pmm.take (p : Pmm) (first count : Nat) : Pmm where
  bitmap := fillRange p.bitmap first count true
  freeCount := p.freeCount - count

def Pmm.give (p : Pmm) (first count : Nat) : Pmm where
  bitmap := fillRange p.bitmap first count false
  freeCount := p.freeCount + count

def pageAlignUp (addr : Nat) : Nat := (addr + pageSize - 1) / pageSize * pageSize

def reserveEndFrame : Nat := physToFrame (pageAlignUp (kernelBase + 18 * 1024 * 1024))

def pmmInit : Pmm where
  bitmap :=
    fillRange (fun _ => true) reserveEndFrame (physToFrame ramEnd - reserveEndFrame) false
  freeCount := physToFrame ramEnd - reserveEndFrame

@[irreducible]
def pmmAllocPage (p : Pmm) : Nat × Pmm :=
  if p.freeCount = 0 then (0, p)
  else
    match (List.range totalFrames).find? fun f => !p.bitmap f with
    | none => (0, p)
    | some f => (frameToPhys f, p.take f 1)

def runFree (bitmap : Nat → Bool) (first count : Nat) : Bool :=
  (List.range count).all fun i => !bitmap (first + i)

@[irreducible]
def pmmAllocPages (p : Pmm) (count : Nat) : Nat × Pmm :=
  if count = 0 ∨ p.freeCount < count then (0, p)
  else
    match (List.range (totalFrames - count + 1)).find? fun f => runFree p.bitmap f count with
    | none => (0, p)
    | some f => (frameToPhys f, p.take f count)

@[irreducible]
def pmmFreePage (p : Pmm) (addr : Nat) : Pmm :=
  let f := physToFrame addr
  if f < totalFrames ∧ p.bitmap f = true then p.give f 1 else p

def pmmFreePages (p : Pmm) (addr : Nat) : Nat → Pmm
  | 0 => p
  | i + 1 => pmmFreePage (pmmFreePages p addr i) ((addr + i * pageSize) % wordSize)

/-! ## Addresses and frames -/

lemma physToFrame_frameToPhys {f : Nat} (hf : f < totalFrames) :
  physToFrame (frameToPhys f) = f := by
  simp only [physToFrame, frameToPhys, totalFrames, ramSize, pageSize, ramStart, wordSize] at *
  omega

lemma frameToPhys_inj {f g : Nat} (hf : f < totalFrames) (hg : g < totalFrames)
  (heq : frameToPhys f = frameToPhys g) : f = g := by
  rw [← physToFrame_frameToPhys hf, ← physToFrame_frameToPhys hg, heq]

lemma frameToPhys_ne_zero (f : Nat) : frameToPhys f ≠ 0 := by
  simp only [frameToPhys, ramStart]
  omega

lemma Pmm.take_bitmap (p : Pmm) (first count f : Nat) : (p.take first count).bitmap f =
    if first ≤ f ∧ f < first + count then true else p.bitmap f := rfl

lemma Pmm.give_bitmap (p : Pmm) (first count f : Nat) : (p.give first count).bitmap f =
    if first ≤ f ∧ f < first + count then false else p.bitmap f := rfl

lemma runFree_iff {bitmap : Nat → Bool} {first count : Nat} :
  runFree bitmap first count = true ↔ ∀ i < count, bitmap (first + i) = false := by
  simp [runFree]

/-- Frames the page allocator owns at boot. -/
def bootFrames : Nat := 28032

lemma pmmInit_freeCount : pmmInit.freeCount = bootFrames := by decide

lemma pmmInit_bitmap (f : Nat) (hf : f < totalFrames) :
  pmmInit.bitmap f = true ↔ f < reserveEndFrame := by
  have hend : reserveEndFrame + (physToFrame ramEnd - reserveEndFrame) = totalFrames := by decide
  simp only [pmmInit, fillRange, hend, hf, and_true]
  by_cases hlow : reserveEndFrame ≤ f
  · simp only [hlow, if_true, Bool.false_eq_true, false_iff]
    omega
  simp only [hlow, if_false, true_iff]
  omega

lemma pmmAllocPage_cases (p : Pmm) : (pmmAllocPage p = (0, p) ∧
      (p.freeCount = 0 ∨ ∀ f < totalFrames, p.bitmap f = true)) ∨
    ∃ f < totalFrames, p.bitmap f = false ∧ (∀ g < f, p.bitmap g = true) ∧
      p.freeCount ≠ 0 ∧ pmmAllocPage p = (frameToPhys f, p.take f 1) := by
  unfold pmmAllocPage
  by_cases hcount : p.freeCount = 0
  · exact .inl ⟨if_pos hcount, .inl hcount⟩
  rw [if_neg hcount]
  cases hfind : (List.range totalFrames).find? fun f => !p.bitmap f with
  | none =>
    refine .inl ⟨rfl, .inr fun f hf => ?_⟩
    simpa using List.find?_range_eq_none.mp hfind f hf
  | some f =>
    obtain ⟨hfree, hlt, hbelow⟩ := List.find?_range_eq_some.mp hfind
    exact .inr ⟨f, by simpa using hlt, by simpa using hfree,
      fun g hg => by simpa using hbelow g hg, hcount, rfl⟩

lemma pmmAllocPages_cases (p : Pmm) (count : Nat) : (pmmAllocPages p count = (0, p) ∧
      (count = 0 ∨ p.freeCount < count ∨
        ∀ f ≤ totalFrames - count, runFree p.bitmap f count = false)) ∨
    ∃ f ≤ totalFrames - count, runFree p.bitmap f count = true ∧
      (∀ g < f, runFree p.bitmap g count = false) ∧ count ≠ 0 ∧ count ≤ p.freeCount ∧
      pmmAllocPages p count = (frameToPhys f, p.take f count) := by
  unfold pmmAllocPages
  by_cases hcount : count = 0 ∨ p.freeCount < count
  · refine .inl ⟨if_pos hcount, ?_⟩
    rcases hcount with h | h
    · exact .inl h
    · exact .inr (.inl h)
  rw [if_neg hcount]
  obtain ⟨hzero, hfew⟩ := not_or.mp hcount
  cases hfind : (List.range (totalFrames - count + 1)).find?
      fun f => runFree p.bitmap f count with
  | none =>
    refine .inl ⟨rfl, .inr (.inr fun f hf => ?_)⟩
    simpa using List.find?_range_eq_none.mp hfind f (by omega)
  | some f =>
    obtain ⟨hfree, hlt, hbelow⟩ := List.find?_range_eq_some.mp hfind
    have hlt := List.mem_range.mp hlt
    exact .inr ⟨f, by omega, hfree, fun g hg => by simpa using hbelow g hg, hzero,
      by omega, rfl⟩

end Aeos.Mem
