/-
# Kernel heap

The bump allocator of `boot/aarch64/heap.c`. `kfree` does nothing, so the heap
is its pointer and its byte counter.
-/

import Aeos.Lib.Bits
import Aeos.Lib.Machine
import Aeos.Mem.Pmm

namespace Aeos.Mem

structure Heap where
  ptr : Nat
  used : Nat
  deriving DecidableEq

def heapInit : Heap where
  ptr := heapStart
  used := 0

@[irreducible]
def kmalloc (h : Heap) (size : Nat) : Nat × Heap :=
  if size = 0 then (0, h)
  else
    let size := (size + 7) % wordSize / 8 * 8
    if heapEnd < (h.ptr + size) % wordSize then (0, h)
    else
      (h.ptr,
        { ptr := (h.ptr + size) % wordSize, used := (h.used + size) % wordSize })

@[irreducible]
def kmallocAligned (h : Heap) (size align : Nat) : Nat × Heap :=
  if size = 0 ∨ align = 0 ∨ align &&& (align - 1) ≠ 0 then (0, h)
  else
    kmalloc { h with ptr := (h.ptr + align - 1) % wordSize &&& (wordSize - align) } size

def heapGetUsed (h : Heap) : Nat := h.used

def heapGetFree (h : Heap) : Nat := (heapEnd + wordSize - h.ptr) % wordSize

def heapGetCapacity : Nat := heapSize

lemma kmalloc_cases {h : Heap} (hptr : h.ptr ≤ heapEnd) {size : Nat} (hpos : 0 < size)
  (hsize : size < 2 ^ 32) : (kmalloc h size = (0, h) ∧ heapEnd < h.ptr + (size + 7) / 8 * 8) ∨
    (h.ptr + (size + 7) / 8 * 8 ≤ heapEnd ∧ kmalloc h size = (h.ptr,
          { ptr := h.ptr + (size + 7) / 8 * 8,
            used := (h.used + (size + 7) / 8 * 8) % wordSize })) := by
  have hend : heapEnd < 2 ^ 32 := by decide
  have hround : (size + 7) % wordSize = size + 7 := Nat.mod_eq_of_lt (by unfold wordSize; omega)
  have hfit : (h.ptr + (size + 7) / 8 * 8) % wordSize = h.ptr + (size + 7) / 8 * 8 :=
    Nat.mod_eq_of_lt (by unfold wordSize; omega)
  unfold kmalloc
  rw [if_neg (Nat.pos_iff_ne_zero.mp hpos)]
  simp only [hround, hfit]
  by_cases hfull : heapEnd < h.ptr + (size + 7) / 8 * 8
  · exact .inl ⟨if_pos hfull, hfull⟩
  · exact .inr ⟨not_lt.mp hfull, if_neg hfull⟩

open Lib

inductive Call
  | kmalloc (size : UInt64)
  | kmallocAligned (size align : UInt64)
  deriving DecidableEq

namespace Call

def size : Call → Nat
  | kmalloc size | kmallocAligned size _ => size.toNat

def align : Call → Nat
  | kmalloc _ => 1
  | kmallocAligned _ align => align.toNat

def run (h : Heap) : Call → Nat × Heap
  | kmalloc size => Mem.kmalloc h size.toNat
  | kmallocAligned size align => Mem.kmallocAligned h size.toNat align.toNat

def Valid (c : Call) : Prop := c.size ≠ 0 ∧ c.align.isPowerOfTwo

def start (h : Heap) (c : Call) : Nat := alignUp h.ptr c.align

def rounded (c : Call) : Nat := alignUp c.size 8

lemma size_lt (c : Call) : c.size < wordSize := by
  cases c <;> exact UInt64.toNat_lt _

lemma align_lt (c : Call) : c.align < wordSize := by
  cases c with
  | kmalloc _ => exact (by decide : 1 < wordSize)
  | kmallocAligned _ align => exact UInt64.toNat_lt _

lemma size_le_rounded (c : Call) : c.size ≤ c.rounded := le_alignUp (by decide)

lemma rounded_lt (c : Call) : c.rounded < c.size + 8 := alignUp_lt (by decide)

lemma rounded_le (c : Call) : c.rounded ≤ wordSize :=
  alignUp_le (by decide) (by decide) c.size_lt.le

lemma Valid.align_eq {c : Call} (hvalid : c.Valid) : ∃ k ≤ 63, c.align = 2 ^ k := by
  obtain ⟨k, hk⟩ := hvalid.2
  have hlt : 2 ^ k < 2 ^ 64 := hk ▸ c.align_lt
  exact ⟨k, Nat.le_of_lt_succ ((Nat.pow_lt_pow_iff_right (by decide)).mp hlt), hk⟩

lemma Valid.le_start {c : Call} (hvalid : c.Valid) (h : Heap) : h.ptr ≤ c.start h := by
  obtain ⟨k, _, hk⟩ := hvalid.align_eq
  exact le_alignUp (hk ▸ Nat.two_pow_pos k)

end Call

structure Heap.Tidy (h : Heap) : Prop where
  word : 8 ∣ h.ptr
  lower : heapStart ≤ h.ptr
  upper : h.ptr ≤ 2 ^ 63

variable {h : Heap} {c : Call} {s : HeapRun}

lemma Heap.Tidy.start (hh : h.Tidy) (hvalid : c.Valid) :
  8 ∣ c.start h ∧ heapStart ≤ c.start h ∧ c.start h ≤ 2 ^ 63 := by
  obtain ⟨k, hk63, hk⟩ := hvalid.align_eq
  refine ⟨?_, hh.lower.trans (hvalid.le_start h), ?_⟩
  · unfold Call.start
    rw [hk]
    exact two_pow_dvd_alignUp (show 2 ^ 3 ∣ h.ptr from hh.word)
  unfold Call.start
  rw [hk]
  exact alignUp_le (Nat.two_pow_pos k) (Nat.pow_dvd_pow 2 hk63) hh.upper

lemma kmalloc_eq (h : Heap) {size : Nat} (hpos : size ≠ 0) (hsize : size < wordSize) :
  kmalloc h size = if heapEnd < (h.ptr + alignUp size 8) % wordSize then (0, h) else (h.ptr,
        { ptr := (h.ptr + alignUp size 8) % wordSize
          used := (h.used + alignUp size 8) % wordSize }) := by
  have hround : (size + 7) % wordSize / 8 * 8 = alignUp size 8 % wordSize := by
    unfold alignUp wordSize at *
    omega
  unfold kmalloc
  simp only [if_neg hpos, hround, Nat.add_mod_mod]

lemma mask_eq_alignUp {ptr k : Nat} (hptr : ptr ≤ 2 ^ 63) (hk : k ≤ 63) :
  (ptr + 2 ^ k - 1) % wordSize &&& (wordSize - 2 ^ k) = alignUp ptr (2 ^ k) := by
  have hpow : 2 ^ k ≤ 2 ^ 63 := Nat.pow_le_pow_right (by decide) hk
  have hlt : ptr + 2 ^ k - 1 < wordSize := by
    unfold wordSize
    omega
  rw [Nat.mod_eq_of_lt hlt]
  exact add_and_bitsFrom_eq_alignUp (by omega) hlt

lemma Call.run_cases (hh : h.Tidy) (c : Call) : (¬ c.Valid ∧ c.run h = (0, h)) ∨
    (c.Valid ∧ heapEnd < (c.start h + c.rounded) % wordSize ∧
      c.run h = (0, { h with ptr := c.start h })) ∨
    (c.Valid ∧ (c.start h + c.rounded) % wordSize ≤ heapEnd ∧
      c.run h =
        (c.start h,
          { ptr := (c.start h + c.rounded) % wordSize
            used := (h.used + c.rounded) % wordSize })) := by
  by_cases hvalid : c.Valid
  · right
    have hrun : c.run h = Mem.kmalloc { h with ptr := c.start h } c.size := by
      cases c with
      | kmalloc size => simp [Call.run, Call.start, Call.size, Call.align, alignUp]
      | kmallocAligned size align =>
        obtain ⟨k, hk63, hk⟩ := hvalid.align_eq
        obtain ⟨hsize, hpower⟩ := hvalid
        change align.toNat = 2 ^ k at hk
        have hne := hk ▸ (Nat.two_pow_pos k).ne'
        have hchecks : ¬ (size.toNat = 0 ∨ align.toNat = 0 ∨
            align.toNat &&& (align.toNat - 1) ≠ 0) := by
          rintro (hzero | hzero | hbits)
          · exact hsize hzero
          · exact hne hzero
          · exact hbits ((Nat.and_sub_one_eq_zero_iff_isPowerOfTwo hne).mpr hpower)
        simp only [Call.run, Call.start, Call.size, Call.align, Mem.kmallocAligned,
          if_neg hchecks]
        rw [hk, mask_eq_alignUp hh.upper hk63]
    rw [hrun, kmalloc_eq _ hvalid.1 c.size_lt]
    by_cases hfull : heapEnd < (c.start h + c.rounded) % wordSize
    · exact .inl ⟨hvalid, hfull, if_pos hfull⟩
    · exact .inr ⟨hvalid, not_lt.mp hfull, if_neg hfull⟩
  refine .inl ⟨hvalid, ?_⟩
  cases c with
  | kmalloc size =>
    have hzero : size.toNat = 0 := by
      by_contra hne
      exact hvalid ⟨hne, 0, rfl⟩
    simp [Call.run, Mem.kmalloc, hzero]
  | kmallocAligned size align =>
    have hchecks : size.toNat = 0 ∨ align.toNat = 0 ∨
        align.toNat &&& (align.toNat - 1) ≠ 0 := by
      by_contra hnone
      simp only [not_or, not_not] at hnone
      obtain ⟨hsize, hne, hbits⟩ := hnone
      exact hvalid ⟨hsize, (Nat.and_sub_one_eq_zero_iff_isPowerOfTwo hne).mp hbits⟩
    simp only [Call.run, Mem.kmallocAligned, if_pos hchecks]

/-! ## The blocks of a sequence of calls -/

structure Block where
  addr : Nat
  size : Nat
  deriving DecidableEq

/-- The heap, with the blocks handed out so far. -/
structure HeapRun where
  heap : Heap
  blocks : List Block

def HeapRun.react (s : HeapRun) (c : Call) : HeapRun where
  heap := (c.run s.heap).2
  blocks :=
    if (c.run s.heap).1 = 0 then s.blocks
    else { addr := (c.run s.heap).1, size := c.size } :: s.blocks

def heapBoot : HeapRun where
  heap := heapInit
  blocks := []

/-- Every sequence of allocation calls after `heap_init`. -/
def heapMachine : Machine HeapRun Call where
  init s := s = heapBoot
  enabled _ _ := True
  step := HeapRun.react

structure Call.Real (given : List Block) (c : Call) (addr : Nat) : Prop where
  lower : heapStart ≤ addr
  upper : addr + c.size ≤ heapEnd
  word : 8 ∣ addr
  aligned : c.align ∣ addr
  apart : ∀ b ∈ given, ¬ Overlaps addr c.size b.addr b.size

/-- The answer to `c` is `NULL` or a real block. -/
def HeapRun.Answers (s : HeapRun) (c : Call) : Prop :=
  (c.run s.heap).1 ≠ 0 → c.Real s.blocks (c.run s.heap).1

/-- The end of the block passes `2 ^ 64` and lands at or below `HEAP_END`. -/
def Call.Wraps (h : Heap) (c : Call) : Prop :=
  c.Valid ∧ wordSize ≤ c.start h + c.rounded ∧ c.start h + c.rounded ≤ wordSize + heapEnd

structure HeapRun.Apart (s : HeapRun) : Prop where
  tidy : s.heap.Tidy
  below : ∀ b ∈ s.blocks, b.addr + b.size ≤ s.heap.ptr

lemma heapBoot_apart : heapBoot.Apart where
  tidy :=
    { word := by decide
      lower := le_rfl
      upper := by decide }
  below := by simp [heapBoot]

lemma Call.end_le_of_not_wraps (hh : h.Tidy) (hvalid : c.Valid) (hwraps : ¬ c.Wraps h)
  (hfits : (c.start h + c.rounded) % wordSize ≤ heapEnd) : c.start h + c.rounded ≤ heapEnd := by
  obtain ⟨_, _, hstart⟩ := hh.start hvalid
  have hrounded := c.rounded_le
  have hlt : c.start h + c.rounded < wordSize := by
    by_contra hge
    have hmod : (c.start h + c.rounded) % wordSize = c.start h + c.rounded - wordSize := by
      unfold wordSize at *
      omega
    exact hwraps ⟨hvalid, by omega, by omega⟩
  rwa [Nat.mod_eq_of_lt hlt] at hfits

lemma Call.run_of_wraps (hh : h.Tidy) (hwraps : c.Wraps h) : (c.run h).1 = c.start h := by
  obtain ⟨hvalid, hpast, hend⟩ := hwraps
  have hmod : (c.start h + c.rounded) % wordSize = c.start h + c.rounded - wordSize := by
    have hword : heapEnd < wordSize := by decide
    rw [Nat.mod_eq_sub_mod hpast, Nat.mod_eq_of_lt (by omega)]
  rcases c.run_cases hh with ⟨hno, _⟩ | ⟨_, hfull, _⟩ | ⟨_, _, hrun⟩
  · exact absurd hvalid hno
  · omega
  · rw [hrun]

lemma HeapRun.answers_iff (hs : s.Apart) (c : Call) : s.Answers c ↔ ¬ c.Wraps s.heap := by
  constructor
  · intro hanswers hwraps
    obtain ⟨_, hlower, _⟩ := hs.tidy.start hwraps.1
    have haddr := Call.run_of_wraps hs.tidy hwraps
    have hstart : 0 < heapStart := by decide
    have hreal := hanswers (by omega)
    have hupper := hreal.upper
    -- The block is nearly 2^64 bytes long.
    have hrounded := c.rounded_lt
    have hpast := hwraps.2.1
    have hend : heapEnd + 8 < wordSize := by decide
    omega
  intro hwraps hne
  rcases c.run_cases hs.tidy with ⟨_, hrun⟩ | ⟨_, _, hrun⟩ | ⟨hvalid, hfits, hrun⟩
  · exact absurd (congrArg Prod.fst hrun) hne
  · exact absurd (congrArg Prod.fst hrun) hne
  have hend := Call.end_le_of_not_wraps hs.tidy hvalid hwraps hfits
  obtain ⟨hword, hlower, _⟩ := hs.tidy.start hvalid
  rw [hrun]
  refine ⟨hlower, ?_, hword, dvd_alignUp, ?_⟩
  · exact (Nat.add_le_add_left c.size_le_rounded _).trans hend
  rintro b hb ⟨x, hx, _, _, hxb⟩
  have hbelow := hs.below b hb
  have hstart := hvalid.le_start s.heap
  omega

lemma HeapRun.apart_react (hs : s.Apart) (hwraps : ¬ c.Wraps s.heap) : (s.react c).Apart := by
  rcases c.run_cases hs.tidy with ⟨_, hrun⟩ | ⟨hvalid, _, hrun⟩ | ⟨hvalid, hfits, hrun⟩
  · have hreact : s.react c = s := by simp [HeapRun.react, hrun]
    rwa [hreact]
  · have hstart := hvalid.le_start s.heap
    obtain ⟨hword, hlower, hupper⟩ := hs.tidy.start hvalid
    have hreact : s.react c = { s with heap := { s.heap with ptr := c.start s.heap } } := by
      simp [HeapRun.react, hrun]
    rw [hreact]
    exact ⟨⟨hword, hlower, hupper⟩, fun b hb => (hs.below b hb).trans hstart⟩
  have hend := Call.end_le_of_not_wraps hs.tidy hvalid hwraps hfits
  have hstart := hvalid.le_start s.heap
  obtain ⟨hword, hlower, hupper⟩ := hs.tidy.start hvalid
  have hheap : heapEnd < 2 ^ 63 := by decide
  have hptr : (c.start s.heap + c.rounded) % wordSize = c.start s.heap + c.rounded :=
    Nat.mod_eq_of_lt (by unfold wordSize; omega)
  have hzero : c.start s.heap ≠ 0 := by
    have hpos : 0 < heapStart := by decide
    omega
  have hreact : s.react c =
      { heap :=
          { ptr := c.start s.heap + c.rounded
            used := (s.heap.used + c.rounded) % wordSize }
        blocks := { addr := c.start s.heap, size := c.size } :: s.blocks } := by
    simp [HeapRun.react, hrun, hptr, hzero]
  rw [hreact]
  refine ⟨⟨?_, ?_, ?_⟩, ?_⟩
  · exact (Nat.dvd_add_right hword).mpr dvd_alignUp
  · exact hlower.trans (Nat.le_add_right _ _)
  · exact hend.trans hheap.le
  intro b hb
  rcases List.mem_cons.mp hb with rfl | hold
  · exact Nat.add_le_add_left c.size_le_rounded _
  have hbelow := hs.below b hold
  dsimp only
  omega

/-- Every block that a sequence of calls hands out is real and apart from the earlier
ones exactly when no call of the sequence wraps. -/
theorem heap_blocks_real_iff (calls : List Call) :
  (∀ p ∈ heapMachine.history heapBoot calls, p.1.Answers p.2) ↔
    ∀ p ∈ heapMachine.history heapBoot calls, ¬ p.2.Wraps p.1.heap :=
  Machine.history_all_iff HeapRun.Apart (fun _ c _ hs => HeapRun.answers_iff hs c)
    (fun _ _ _ hs hwraps => HeapRun.apart_react hs hwraps) heapBoot_apart

theorem heap_blocks_real_small :
  ∀ p ∈ heapMachine.history heapBoot [.kmalloc 24, .kmallocAligned 100 4096, .kmalloc 0],
    p.1.Answers p.2 := by
  have hends : ∀ p ∈ heapMachine.history heapBoot
      [.kmalloc 24, .kmallocAligned 100 4096, .kmalloc 0],
      p.2.start p.1.heap + p.2.rounded < wordSize := by
    decide +kernel
  exact (heap_blocks_real_iff _).mpr fun p hp hwraps =>
    Nat.not_le_of_lt (hends p hp) hwraps.2.1

/-- The rounding of `SIZE_MAX` wraps to zero: the request succeeds, with the address of
the next block. -/
theorem kmalloc_size_max_succeeds :
  (Call.run heapInit (.kmalloc 0xFFFFFFFFFFFFFFFF)).1 = heapStart ∧
    ¬ heapBoot.Answers (.kmalloc 0xFFFFFFFFFFFFFFFF) := by
  have hrun : (Call.run heapInit (.kmalloc 0xFFFFFFFFFFFFFFFF)).1 = heapStart := by
    decide +kernel
  refine ⟨hrun, fun hanswers => ?_⟩
  have hupper := (hanswers (by change (Call.run heapInit _).1 ≠ 0; rw [hrun]; decide)).upper
  change (Call.run heapInit _).1 + _ ≤ _ at hupper
  rw [hrun] at hupper
  revert hupper
  decide

/-! ## The counters -/

def Call.Small (c : Call) : Prop := c.size < 2 ^ 32 ∧ c.align < 2 ^ 32

instance (c : Call) : Decidable c.Small := inferInstanceAs (Decidable (_ ∧ _))

/-- After `c` the counters add up, and if it returned `NULL` they are what they were. -/
def HeapRun.Accounts (s : HeapRun) (c : Call) : Prop :=
  heapGetUsed (c.run s.heap).2 + heapGetFree (c.run s.heap).2 = heapGetCapacity ∧
    ((c.run s.heap).1 = 0 → heapGetUsed (c.run s.heap).2 = heapGetUsed s.heap ∧
      heapGetFree (c.run s.heap).2 = heapGetFree s.heap)

/-- The call need not move the pointer to align it. -/
def Call.InPlace (h : Heap) (c : Call) : Prop := c.Valid → c.align ∣ h.ptr

structure Heap.Exact (h : Heap) : Prop where
  word : 8 ∣ h.ptr
  lower : heapStart ≤ h.ptr
  upper : h.ptr ≤ heapEnd
  counted : h.used = h.ptr - heapStart

lemma heapEnd_eq : heapEnd = heapStart + heapSize := rfl

lemma heapEnd_lt : heapEnd < 2 ^ 31 := by decide

lemma Heap.Exact.tidy (hh : h.Exact) : h.Tidy where
  word := hh.word
  lower := hh.lower
  upper := hh.upper.trans (by decide)

lemma heapGetFree_inside (hupper : h.ptr ≤ heapEnd) : heapGetFree h = heapEnd - h.ptr := by
  have hend := heapEnd_lt
  unfold heapGetFree wordSize
  omega

lemma heapGetFree_outside (hbeyond : heapEnd < h.ptr) (hword : h.ptr < wordSize) :
  heapGetFree h = wordSize - (h.ptr - heapEnd) := by
  unfold heapGetFree wordSize at *
  omega

lemma Heap.Exact.adds_up (hh : h.Exact) : heapGetUsed h + heapGetFree h = heapGetCapacity := by
  obtain ⟨_, hlower, hupper, hcounted⟩ := hh
  have hend := heapEnd_eq
  rw [heapGetFree_inside hupper, heapGetUsed, heapGetCapacity]
  omega

lemma Call.Small.rounded_le (hsmall : c.Small) : c.rounded ≤ 2 ^ 32 :=
  alignUp_le (by decide) (by decide) hsmall.1.le

lemma Call.Small.start_lt (hsmall : c.Small) (hvalid : c.Valid) (hupper : h.ptr ≤ heapEnd) :
  c.start h < 2 ^ 33 := by
  obtain ⟨k, _, hk⟩ := hvalid.align_eq
  have hlt : c.start h < h.ptr + c.align := alignUp_lt (hk ▸ Nat.two_pow_pos k)
  have halign := hsmall.2
  have hend := heapEnd_lt
  omega

lemma Call.Valid.start_eq_iff (hvalid : c.Valid) (h : Heap) :
  c.start h = h.ptr ↔ c.align ∣ h.ptr := by
  obtain ⟨k, _, hk⟩ := hvalid.align_eq
  exact alignUp_eq_self_iff (hk ▸ Nat.two_pow_pos k)

lemma Call.run_small (hh : h.Exact) (hsmall : c.Small) : (¬ c.Valid ∧ c.run h = (0, h)) ∨
    (c.Valid ∧ c.run h = (0, { h with ptr := c.start h })) ∨
    (c.Valid ∧ c.start h + c.rounded ≤ heapEnd ∧
      c.run h =
        (c.start h, { ptr := c.start h + c.rounded, used := h.used + c.rounded })) := by
  rcases c.run_cases hh.tidy with hinvalid | ⟨hvalid, _, hrun⟩ | ⟨hvalid, hfits, hrun⟩
  · exact .inl hinvalid
  · exact .inr (.inl ⟨hvalid, hrun⟩)
  have hstart := hsmall.start_lt hvalid hh.upper
  have hrounded := hsmall.rounded_le
  have hend := heapEnd_lt
  have hcounted := hh.counted
  have hupper := hh.upper
  have hptr : (c.start h + c.rounded) % wordSize = c.start h + c.rounded :=
    Nat.mod_eq_of_lt (by unfold wordSize; omega)
  have hused : (h.used + c.rounded) % wordSize = h.used + c.rounded :=
    Nat.mod_eq_of_lt (by unfold wordSize; omega)
  rw [hptr] at hfits
  rw [hptr, hused] at hrun
  exact .inr (.inr ⟨hvalid, hfits, hrun⟩)

lemma HeapRun.exact_react (hs : s.heap.Exact) (hsmall : c.Small) (hplace : c.InPlace s.heap) :
  (s.react c).heap.Exact := by
  change (c.run s.heap).2.Exact
  rcases Call.run_small hs hsmall with ⟨_, hrun⟩ | ⟨hvalid, hrun⟩ | ⟨hvalid, hfits, hrun⟩
  · rw [hrun]
    exact hs
  · rw [hrun, (hvalid.start_eq_iff s.heap).mpr (hplace hvalid)]
    exact hs
  have hstart := (hvalid.start_eq_iff s.heap).mpr (hplace hvalid)
  obtain ⟨hword, hlower, hupper, hcounted⟩ := hs
  rw [hstart] at hrun hfits
  rw [hrun]
  refine ⟨(Nat.dvd_add_right hword).mpr dvd_alignUp, ?_, hfits, ?_⟩
  · exact hlower.trans (Nat.le_add_right _ _)
  dsimp only
  omega

lemma HeapRun.accounts_iff (hs : s.heap.Exact) (hsmall : c.Small) :
  s.Accounts c ↔ c.InPlace s.heap := by
  constructor
  · intro ⟨hsum, _⟩ hvalid
    rw [← hvalid.start_eq_iff]
    have hend := heapEnd_eq
    have hfar := hsmall.start_lt hvalid hs.upper
    obtain ⟨_, hlower, hupper, hcounted⟩ := hs
    -- The gap up to the aligned address is neither used nor free.
    rcases Call.run_small ⟨‹_›, hlower, hupper, hcounted⟩ hsmall with
      ⟨hno, _⟩ | ⟨_, hrun⟩ | ⟨_, hfits, hrun⟩
    · exact absurd hvalid hno
    · rw [hrun] at hsum
      rcases Nat.lt_or_ge heapEnd (c.start s.heap) with hbeyond | hinside
      · rw [heapGetFree_outside hbeyond (by dsimp only; unfold wordSize; omega)] at hsum
        unfold heapGetUsed heapGetCapacity wordSize at hsum
        dsimp only at hsum
        omega
      rw [heapGetFree_inside hinside] at hsum
      unfold heapGetUsed heapGetCapacity at hsum
      dsimp only at hsum
      omega
    rw [hrun, heapGetFree_inside hfits] at hsum
    unfold heapGetUsed heapGetCapacity at hsum
    dsimp only at hsum
    omega
  intro hplace
  refine ⟨(HeapRun.exact_react hs hsmall hplace).adds_up, fun hnull => ?_⟩
  have hsame : (c.run s.heap).2 = s.heap := by
    rcases Call.run_small hs hsmall with ⟨_, hrun⟩ | ⟨hvalid, hrun⟩ | ⟨hvalid, _, hrun⟩
    · rw [hrun]
    · rw [hrun, (hvalid.start_eq_iff s.heap).mpr (hplace hvalid)]
    rw [hrun] at hnull
    have hge := hvalid.le_start s.heap
    have hlower := hs.lower
    have hpos : 0 < heapStart := by decide
    omega
  rw [hsame]
  exact ⟨rfl, rfl⟩

/-- Along small requests the counters add up, and no failed call changes them, exactly when no
valid request has to move the pointer to align it. -/
theorem heap_accounting_exact_iff (calls : List Call) (hsmall : ∀ c ∈ calls, c.Small) :
  (∀ p ∈ heapMachine.history heapBoot calls, p.1.Accounts p.2) ↔
    ∀ p ∈ heapMachine.history heapBoot calls, p.2.InPlace p.1.heap := by
  have hboot : heapBoot.heap.Exact := ⟨by decide, le_rfl, by decide, by decide⟩
  exact Machine.history_all_iff (fun s : HeapRun => s.heap.Exact)
    (fun _ c hc hs => HeapRun.accounts_iff hs (hsmall c hc))
    (fun _ c hc hs hplace => HeapRun.exact_react hs (hsmall c hc) hplace) hboot

def packedCalls : List Call := [.kmalloc 20, .kmallocAligned 8 8, .kmalloc 0x2000000]

theorem heap_accounting_exact_packed : (∀ c ∈ packedCalls, c.Small) ∧
  ∀ p ∈ heapMachine.history heapBoot packedCalls, p.1.Accounts p.2 := by
  have hsmall : ∀ c ∈ packedCalls, c.Small := by decide
  have haligned : ∀ p ∈ heapMachine.history heapBoot packedCalls, p.2.align ∣ p.1.heap.ptr := by
    decide +kernel
  exact ⟨hsmall, (heap_accounting_exact_iff _ hsmall).mpr fun p hp _ => haligned p hp⟩

/-- The gap before an aligned block is lost to both counters, and an aligned request that
fails moves the pointer too. -/
theorem aligned_gap_uncounted :
  (¬ ((heapBoot.react (.kmalloc 8)).Accounts (.kmallocAligned 8 4096))) ∧
    (Call.run heapInit (.kmallocAligned 0x2000000 0x100000)).1 = 0 ∧
    ¬ heapBoot.Accounts (.kmallocAligned 0x2000000 0x100000) := by
  refine ⟨fun hacc => ?_, by decide +kernel, fun hacc => ?_⟩
  · exact absurd hacc.1 (by decide +kernel)
  · exact absurd hacc.1 (by decide +kernel)

end Aeos.Mem
