/-
# The Rust frame allocator

`FrameAllocator` of `memory/src/frame_alloc.rs`: a bitmap in which a set bit means a free frame,
a counter of free frames, and a bounded stack of free frame numbers that makes single
allocations fast.

`usize` is 64 bits wide and its arithmetic wraps, as in the release profile. A call that indexes
outside an array panics and leaves the state as it was at that point.
-/

import Aeos.Lib.Bits
import Mathlib.Data.List.Basic

namespace Aeos.Frame

open Lib

def pageSize : Nat := 4096

def usizeBound : Nat := 2 ^ 64

def bitmapWords : Nat := 2048

def freeStackSize : Nat := 8192

/-- `InitError`, as far as the allocator uses it. -/
inductive InitError
  | insufficientMemory
  deriving DecidableEq

inductive FrameAllocatorError
  | outOfFrames
  | notAllocated
  | outOfBounds
  deriving DecidableEq

inductive Failure
  | err (e : FrameAllocatorError)
  | panic
  deriving DecidableEq

structure FrameAllocator where
  bitmap : Words 64
  totalFrames : Nat
  freeCount : Nat
  physBase : Nat
  physSize : Nat
  freeStack : Nat → Nat
  freeTop : Nat

namespace FrameAllocator

def new : FrameAllocator where
  bitmap := fun _ => 0#64
  totalFrames := 0
  freeCount := 0
  physBase := 0
  physSize := 0
  freeStack := fun _ => 0
  freeTop := 0

def words (a : FrameAllocator) : Nat := (a.totalFrames + 63) / 64

def bit (a : FrameAllocator) (frame : Nat) : Bool :=
  a.bitmap (frame / 64) &&& 1#64 <<< (frame % 64) ≠ 0#64

def setBit (a : FrameAllocator) (frame : Nat) : FrameAllocator :=
  { a with bitmap := Words.set a.bitmap frame }

def clearBit (a : FrameAllocator) (frame : Nat) : FrameAllocator :=
  { a with bitmap := Words.clear a.bitmap frame }

def push (a : FrameAllocator) (frame : Nat) : FrameAllocator :=
  if a.freeTop < freeStackSize then
    { a with
      freeStack := Function.update a.freeStack a.freeTop frame
      freeTop := a.freeTop + 1 }
  else a

def countUp (a : FrameAllocator) : FrameAllocator :=
  { a with freeCount := (a.freeCount + 1) % usizeBound }

def countDown (a : FrameAllocator) (count : Nat) : FrameAllocator :=
  { a with freeCount := (a.freeCount + usizeBound - count) % usizeBound }

def release (a : FrameAllocator) (frame : Nat) : FrameAllocator :=
  ((a.setBit frame).countUp).push frame

def firstFree (reservedEnd : Nat) : Nat :=
  max ((reservedEnd + pageSize - 1) % usizeBound / pageSize) 1

def init (a : FrameAllocator) (physBase physSize reservedEnd : Nat) :
  Except InitError Unit × FrameAllocator :=
  let a := { a with
    physBase := physBase
    physSize := physSize
    totalFrames := physSize / pageSize
    freeTop := 0 }
  if bitmapWords < a.words then (.error .insufficientMemory, a)
  else
    let a := { a with
      bitmap := fun i => if i < a.words then 0#64 else a.bitmap i
      freeCount := 0 }
    let first := firstFree reservedEnd
    (.ok (), (List.range' first (a.totalFrames - first)).foldl release a)

/-- `FrameAllocator::alloc_frame`: the top of the stack, or the lowest free frame
when the stack is empty. -/
def allocFrame (a : FrameAllocator) : Except Failure Nat × FrameAllocator :=
  if 0 < a.freeTop then
    let frame := a.freeStack (a.freeTop - 1)
    let a := { a with freeTop := a.freeTop - 1 }
    let a := if frame / 64 < bitmapWords then a.clearBit frame else a
    (.ok frame, a.countDown 1)
  else
    -- The loop stops at the first word that is not zero, or past the array.
    match (List.range a.words).find? fun w => bitmapWords ≤ w ∨ a.bitmap w ≠ 0#64 with
    | none => (.error (.err .outOfFrames), a)
    | some w =>
      if bitmapWords ≤ w then (.error .panic, a)
      else
        let frame := w * 64 + (a.bitmap w).ctz.toNat
        if a.totalFrames ≤ frame then (.error (.err .outOfFrames), a)
        else (.ok frame, (a.clearBit frame).countDown 1)

/-- The inner loop of `alloc_frames`: whether `count` frames from `start` are free; `none` is a
panic. -/
def contiguous (a : FrameAllocator) (start count : Nat) : Option Bool :=
  match (List.range count).find? fun i =>
      a.words ≤ (start + i) / 64 ∨ bitmapWords ≤ (start + i) / 64 ∨ a.bit (start + i) = false with
  | none => some true
  | some i =>
    if a.words ≤ (start + i) / 64 then some false
    else if bitmapWords ≤ (start + i) / 64 then none
    else some false

def findRun (a : FrameAllocator) (count : Nat) : List Nat → Except Failure Nat
  | [] => .error (.err .outOfFrames)
  | w :: ws =>
    if bitmapWords ≤ w then .error .panic
    else if a.bitmap w = 0#64 then findRun a count ws
    else
      let start := w * 64 + (a.bitmap w).ctz.toNat
      if a.totalFrames < (start + count) % usizeBound then findRun a count ws
      else
        match a.contiguous start count with
        | none => .error .panic
        | some true => .ok start
        | some false => findRun a count ws

def allocFrames (a : FrameAllocator) (count : Nat) : Except Failure Nat × FrameAllocator :=
  if count = 0 then (.error (.err .outOfFrames), a)
  else if count = 1 then a.allocFrame
  else
    match findRun a count (List.range a.words) with
    | .error failure => (.error failure, a)
    | .ok start => (.ok start, ((List.range' start count).foldl clearBit a).countDown count)

def freeFrame (a : FrameAllocator) (frame : Nat) : Except Failure Unit × FrameAllocator :=
  if a.totalFrames ≤ frame then (.error (.err .outOfBounds), a)
  else if frame / 64 < bitmapWords ∧ a.bit frame = true then (.error (.err .notAllocated), a)
  else
    let a := if frame / 64 < bitmapWords then a.setBit frame else a
    (.ok (), (a.push frame).countUp)

def freeEach (a : FrameAllocator) : List Nat → Except Failure Unit × FrameAllocator
  | [] => (.ok (), a)
  | frame :: frames =>
    match a.freeFrame frame with
    | (.error failure, a) => (.error failure, a)
    | (.ok (), a) => freeEach a frames

def freeFrames (a : FrameAllocator) (frame count : Nat) : Except Failure Unit × FrameAllocator :=
  a.freeEach ((List.range count).map fun i => (frame + i) % usizeBound)

def isFree (a : FrameAllocator) (frame : Nat) : Bool :=
  if a.totalFrames ≤ frame then false
  else if bitmapWords ≤ frame / 64 then false
  else a.bit frame

/-! ## Bits -/

lemma bit_eq (a : FrameAllocator) (frame : Nat) : a.bit frame = Words.test a.bitmap frame := by
  rw [Bool.eq_iff_iff, bit, decide_eq_true_iff]
  exact Words.and_one_shiftLeft (Nat.mod_lt frame (by decide))

lemma bit_setBit (a : FrameAllocator) (f g : Nat) :
  (a.setBit f).bit g = (decide (g = f) || a.bit g) := by
  rw [bit_eq, bit_eq]
  exact Words.test_set (by decide) a.bitmap f g

lemma bit_clearBit (a : FrameAllocator) (f g : Nat) :
  (a.clearBit f).bit g = (!decide (g = f) && a.bit g) := by
  rw [bit_eq, bit_eq]
  exact Words.test_clear (by decide) a.bitmap f g

lemma bit_congr {a b : FrameAllocator} (heq : a.bitmap = b.bitmap) (g : Nat) :
  a.bit g = b.bit g := by
  rw [bit, bit, heq]

lemma push_bitmap (a : FrameAllocator) (f : Nat) : (a.push f).bitmap = a.bitmap := by
  unfold push
  split_ifs <;> rfl

lemma countDown_bitmap (a : FrameAllocator) (n : Nat) : (a.countDown n).bitmap = a.bitmap := by
  unfold countDown
  with_reducible rfl

@[simp]
lemma countDown_totalFrames (a : FrameAllocator) (n : Nat) :
  (a.countDown n).totalFrames = a.totalFrames := by
  unfold countDown
  with_reducible rfl

@[simp]
lemma push_countUp_totalFrames (a : FrameAllocator) (f : Nat) :
  (a.push f).countUp.totalFrames = a.totalFrames := by
  unfold countUp push
  split_ifs <;> with_reducible rfl

lemma allocFrame_totalFrames (a : FrameAllocator) : a.allocFrame.2.totalFrames = a.totalFrames := by
  unfold allocFrame
  dsimp only
  repeat' split
  all_goals simp [clearBit]

lemma freeFrame_totalFrames (a : FrameAllocator) (f : Nat) :
  (a.freeFrame f).2.totalFrames = a.totalFrames := by
  unfold freeFrame
  repeat' split
  all_goals simp [setBit]

@[simp]
lemma bit_push (a : FrameAllocator) (f g : Nat) : (a.push f).bit g = a.bit g :=
  bit_congr (a.push_bitmap f) g

@[simp]
lemma bit_countUp (a : FrameAllocator) (g : Nat) : a.countUp.bit g = a.bit g := by
  exact bit_congr rfl g

@[simp]
lemma bit_countDown (a : FrameAllocator) (n g : Nat) : (a.countDown n).bit g = a.bit g :=
  bit_congr (a.countDown_bitmap n) g

end FrameAllocator
end Aeos.Frame
