/-
# The page allocator on its bytes

`pmm.c` as it is stored: a bitmap of bytes, a free counter next to it, scans with
unsigned bounds.
-/

import Aeos.Lib.Bits
import Aeos.Lib.Machine
import Aeos.Mem.Frames

namespace Aeos.Mem.Bytes

open Lib List Finset

def bitmapSize : Nat := ramSize / pageSize / 8

structure State where
  pmmBitmap : Words 8
  pmmTotalPages : Nat
  pmmFreeCount : Nat

def pmmTestBit (s : State) (f : Nat) : Bool := s.pmmBitmap (f / 8) >>> (f % 8) &&& 1#8 ≠ 0#8

def pmmSetBit (s : State) (f : Nat) : State := { s with pmmBitmap := Words.set s.pmmBitmap f }

def pmmClearBit (s : State) (f : Nat) : State := { s with pmmBitmap := Words.clear s.pmmBitmap f }

def State.countUp (s : State) : State :=
  { s with pmmFreeCount := (s.pmmFreeCount + 1) % wordSize }

def State.countDown (s : State) (count : Nat) : State :=
  { s with pmmFreeCount := (s.pmmFreeCount + wordSize - count) % wordSize }

def pmmInit (s : State) : State :=
  let s : State :=
    { pmmBitmap := fun i => if i < bitmapSize then 0xFF#8 else s.pmmBitmap i
      pmmTotalPages := ramSize / pageSize
      pmmFreeCount := 0 }
  (List.range' reserveEndFrame (physToFrame ramEnd - reserveEndFrame)).foldl
    (fun s f => (pmmClearBit s f).countUp) s

@[irreducible]
def pmmAllocPage (s : State) : Nat × State :=
  if s.pmmFreeCount = 0 then (0, s)
  else
    match (List.range totalFrames).find? fun f => !pmmTestBit s f with
    | none => (0, s)
    | some f => (frameToPhys f, (pmmSetBit s f).countDown 1)

/-- `pmm_alloc_pages`. The bound `total - count` of the scan is unsigned. -/
@[irreducible]
def pmmAllocPages (s : State) (count : Nat) : Nat × State :=
  if count = 0 ∨ s.pmmFreeCount < count then (0, s)
  else
    match (List.range ((totalFrames + wordSize - count) % wordSize + 1)).find? fun f =>
        (List.range count).all fun i => !pmmTestBit s (f + i) with
    | none => (0, s)
    | some f =>
      (frameToPhys f, ((List.range' f count).foldl pmmSetBit s).countDown count)

@[irreducible]
def pmmFreePage (s : State) (addr : Nat) : State :=
  let f := physToFrame addr
  if f < totalFrames ∧ pmmTestBit s f = true then (pmmClearBit s f).countUp else s

/-- `pmm_free_pages`: the first `count` iterations of its loop. -/
def pmmFreePages (s : State) (addr : Nat) : Nat → State
  | 0 => s
  | i + 1 => pmmFreePage (pmmFreePages s addr i) ((addr + i * pageSize) % wordSize)

def State.toPmm (s : State) : Pmm where
  bitmap := pmmTestBit s
  freeCount := s.pmmFreeCount

lemma State.toPmm_bitmap (s : State) : s.toPmm.bitmap = pmmTestBit s := rfl

lemma State.toPmm_freeCount (s : State) : s.toPmm.freeCount = s.pmmFreeCount := rfl

lemma pmmTestBit_eq (s : State) (f : Nat) : pmmTestBit s f = Words.test s.pmmBitmap f := by
  rw [Bool.eq_iff_iff, pmmTestBit, decide_eq_true_iff]
  exact Words.shiftRight_and_one (by decide)

lemma testBit_setBit (s : State) (f g : Nat) :
  pmmTestBit (pmmSetBit s f) g = (decide (g = f) || pmmTestBit s g) := by
  rw [pmmTestBit_eq, pmmTestBit_eq]
  exact Words.test_set (by decide) s.pmmBitmap f g

lemma testBit_clearBit (s : State) (f g : Nat) :
  pmmTestBit (pmmClearBit s f) g = (!decide (g = f) && pmmTestBit s g) := by
  rw [pmmTestBit_eq, pmmTestBit_eq]
  exact Words.test_clear (by decide) s.pmmBitmap f g

lemma testBit_foldl_setBit (frames : List Nat) :
  ∀ (s : State) (g : Nat), pmmTestBit (frames.foldl pmmSetBit s) g =
    (decide (g ∈ frames) || pmmTestBit s g) := by
  induction frames with
  | nil => simp
  | cons f frames ih =>
    intro s g
    rw [foldl_cons, ih, testBit_setBit]
    by_cases hg : g = f <;> simp [hg]

lemma foldl_setBit_freeCount (frames : List Nat) :
  ∀ s : State, (frames.foldl pmmSetBit s).pmmFreeCount = s.pmmFreeCount := by
  induction frames with
  | nil => exact fun _ => rfl
  | cons f frames ih => exact fun s => ih (pmmSetBit s f)

section
variable {s : State}

lemma freeCount_le (hwf : s.toPmm.Wf) : s.pmmFreeCount ≤ totalFrames := by
  have hcard : s.toPmm.freeFrames.card ≤ totalFrames := by
    refine (card_filter_le _ _).trans ?_
    rw [card_range]
  exact hwf.le.trans hcard

lemma totalFrames_lt_wordSize : totalFrames < wordSize := by decide

variable (hwf : s.toPmm.Wf)
include hwf

lemma countDown_toPmm {count f : Nat} {s' : State} (hcount : count ≤ s.pmmFreeCount)
    (hfree : s'.pmmFreeCount = s.pmmFreeCount)
    (hbits : ∀ g, pmmTestBit s' g = (decide (f ≤ g ∧ g < f + count) || pmmTestBit s g)) :
  (s'.countDown count).toPmm = s.toPmm.take f count := by
  have hsmall := (freeCount_le hwf).trans_lt totalFrames_lt_wordSize
  have hdown : (s'.pmmFreeCount + wordSize - count) % wordSize = s.pmmFreeCount - count := by
    rw [hfree, Nat.sub_add_comm hcount, Nat.add_mod_right, Nat.mod_eq_of_lt (by omega)]
  simp only [State.toPmm, State.countDown, Pmm.take, hdown, Pmm.mk.injEq, and_true]
  funext g
  refine (hbits g).trans ?_
  by_cases hg : f ≤ g ∧ g < f + count <;> simp [fillRange, hg]

lemma countUp_toPmm {f : Nat} : ((pmmClearBit s f).countUp).toPmm = s.toPmm.give f 1 := by
  have hsmall : s.pmmFreeCount + 1 < wordSize :=
    (Nat.succ_le_succ (freeCount_le hwf)).trans_lt (by decide)
  simp only [State.toPmm, State.countUp, Pmm.give, Pmm.mk.injEq]
  refine ⟨?_, Nat.mod_eq_of_lt hsmall⟩
  funext g
  refine (testBit_clearBit s f g).trans ?_
  by_cases hg : g = f
  · simp [fillRange, hg]
  have hrange : ¬ (f ≤ g ∧ g < f + 1) := by omega
  simp only [fillRange, hg, hrange, if_false]
  rfl

lemma pmmAllocPage_toPmm :
  Mem.pmmAllocPage s.toPmm = ((pmmAllocPage s).1, (pmmAllocPage s).2.toPmm) := by
  unfold Mem.pmmAllocPage pmmAllocPage
  rw [s.toPmm_freeCount, s.toPmm_bitmap]
  split_ifs with hzero
  · rfl
  generalize ((List.range totalFrames).find? fun f => !pmmTestBit s f) = found
  cases found with
  | none => rfl
  | some f =>
    have htake : ((pmmSetBit s f).countDown 1).toPmm = s.toPmm.take f 1 := by
      refine countDown_toPmm hwf (Nat.pos_of_ne_zero hzero) rfl fun g => ?_
      have hrange : (f ≤ g ∧ g < f + 1) ↔ g = f := by omega
      rw [testBit_setBit]
      simp only [hrange]
    rw [htake]

lemma pmmAllocPages_toPmm (count : Nat) :
  Mem.pmmAllocPages s.toPmm count = ((pmmAllocPages s count).1,
    (pmmAllocPages s count).2.toPmm) := by
  unfold Mem.pmmAllocPages pmmAllocPages
  rw [s.toPmm_freeCount, s.toPmm_bitmap]
  split_ifs with hrefused
  · rfl
  -- The bound of the scan does not wrap: no more frames are asked for than are free.
  have hcount : count ≤ s.pmmFreeCount := by omega
  have hbound : (totalFrames + wordSize - count) % wordSize = totalFrames - count := by
    have hle := hcount.trans (freeCount_le hwf)
    have hlt := totalFrames_lt_wordSize
    rw [Nat.sub_add_comm hle, Nat.add_mod_right, Nat.mod_eq_of_lt (by omega)]
  rw [hbound]
  simp only [runFree]
  generalize ((List.range (totalFrames - count + 1)).find? fun f =>
    (List.range count).all fun i => !pmmTestBit s (f + i)) = found
  cases found with
  | none => rfl
  | some f =>
    have htake : (((List.range' f count).foldl pmmSetBit s).countDown count).toPmm =
        s.toPmm.take f count := by
      refine countDown_toPmm hwf hcount (foldl_setBit_freeCount _ s) fun g => ?_
      rw [testBit_foldl_setBit]
      simp only [mem_range'_1]
    rw [htake]

lemma pmmFreePage_toPmm (addr : Nat) :
  Mem.pmmFreePage s.toPmm addr = (pmmFreePage s addr).toPmm := by
  unfold Mem.pmmFreePage pmmFreePage
  rw [s.toPmm_bitmap]
  dsimp only
  split_ifs with hused
  · exact (countUp_toPmm hwf).symm
  · rfl

end

/-! ## What the calls are for -/

def FreeRun (s : State) (f n : Nat) : Prop :=
  f + n ≤ totalFrames ∧ ∀ i < n, pmmTestBit s (f + i) = false

/-- A request for `n` frames is served with the lowest run of free frames, which alone become
used, or refused when there is none. -/
def Serves (s : State) (n : Nat) (r : Nat × State) : Prop :=
  (r = (0, s) ∧ ∀ f, ¬ FreeRun s f n) ∨
    ∃ f, FreeRun s f n ∧ (∀ g < f, ¬ FreeRun s g n) ∧ r.1 = frameToPhys f ∧
      (ramStart ≤ r.1 ∧ r.1 + n * pageSize ≤ ramEnd) ∧
      ∀ g, pmmTestBit r.2 g = true ↔ pmmTestBit s g = true ∨ f ≤ g ∧ g < f + n

def InFrame (addr f : Nat) : Prop := frameToPhys f ≤ addr ∧ addr < frameToPhys f + pageSize

/-- The frames of RAM that these addresses lie in become free, and no other frame changes. -/
def Releases (s : State) (addressed : Nat → Prop) (s' : State) : Prop :=
  ∀ g < totalFrames,
    pmmTestBit s' g = true ↔ pmmTestBit s g = true ∧ ¬ ∃ addr, addressed addr ∧ InFrame addr g

lemma physToFrame_eq_iff {addr f : Nat} (haddr : addr < wordSize) (hf : f < totalFrames) :
  physToFrame addr = f ↔ InFrame addr f := by
  simp only [physToFrame, InFrame, frameToPhys, totalFrames, ramSize, pageSize, ramStart,
    wordSize] at *
  omega

section
variable {s : State}

lemma FreeRun.le_freeCount {f n : Nat} (h : FreeRun s f n) (hwf : s.toPmm.Wf) :
  n ≤ s.pmmFreeCount := by
  have hsub : Finset.Ico f (f + n) ⊆ s.toPmm.freeFrames := by
    intro g hg
    obtain ⟨hlo, hhi⟩ := mem_Ico.mp hg
    have hfree := h.2 (g - f) (by omega)
    rw [Nat.add_sub_cancel' hlo] at hfree
    exact Pmm.mem_freeFrames.mpr ⟨by have := h.1; omega, hfree⟩
  have hcard := card_le_card hsub
  rwa [Nat.card_Ico, Nat.add_sub_cancel_left, ← hwf] at hcard

lemma freeRun_one {f : Nat} : FreeRun s f 1 ↔ f < totalFrames ∧ pmmTestBit s f = false := by
  refine ⟨fun h => ⟨h.1, h.2 0 (by decide)⟩, fun h => ⟨h.1, fun i hi => ?_⟩⟩
  obtain rfl : i = 0 := by omega
  exact h.2

lemma frameToPhys_range {f n : Nat} (hle : f + n ≤ totalFrames) :
  ramStart ≤ frameToPhys f ∧ frameToPhys f + n * pageSize ≤ ramEnd := by
  simp only [frameToPhys, totalFrames, ramEnd, ramSize, pageSize] at *
  omega

lemma serves_of_take {f n : Nat} {r : Nat × State} (hrun : FreeRun s f n)
  (hlow : ∀ g < f, ¬ FreeRun s g n) (haddr : r.1 = frameToPhys f)
  (hstate : r.2.toPmm = s.toPmm.take f n) : Serves s n r := by
  refine .inr ⟨f, hrun, hlow, haddr, ?_, fun g => ?_⟩
  · rw [haddr]
    exact frameToPhys_range hrun.1
  have hbit : pmmTestBit r.2 g = (s.toPmm.take f n).bitmap g := by rw [← hstate]; rfl
  rw [hbit, Pmm.take_bitmap, s.toPmm_bitmap]
  by_cases hg : f ≤ g ∧ g < f + n <;> simp [hg]

lemma pmmAllocPage_serves (hwf : s.toPmm.Wf) :
  Serves s 1 (pmmAllocPage s) ∧ (pmmAllocPage s).2.toPmm.Wf := by
  have hrefine := pmmAllocPage_toPmm hwf
  have hfail : (pmmAllocPage s).1 = 0 → pmmAllocPage s = (0, s) := by
    unfold pmmAllocPage
    split_ifs
    · exact fun _ => rfl
    split
    · exact fun _ => rfl
    · exact fun hzero => absurd hzero (frameToPhys_ne_zero _)
  rcases pmmAllocPage_wf hwf with ⟨hzero, heq⟩ | ⟨hcount, f, hf, hfree, hlow, heq⟩
  · have hnone := hfail (Prod.mk.inj (hrefine.symm.trans heq)).1
    rw [hnone]
    refine ⟨.inl ⟨rfl, fun f hrun => ?_⟩, hwf⟩
    have hle : 1 ≤ s.toPmm.freeCount := hrun.le_freeCount hwf
    omega
  obtain ⟨haddr, hstate⟩ := Prod.mk.inj (hrefine.symm.trans heq)
  have hrun : FreeRun s f 1 := freeRun_one.mpr ⟨hf, hfree⟩
  refine ⟨serves_of_take hrun (fun g hg hrun' => ?_) haddr hstate, ?_⟩
  · have hused : pmmTestBit s g = true := hlow g hg
    rw [(freeRun_one.mp hrun').2] at hused
    cases hused
  rw [hstate]
  exact ((Holds.refl s.toPmm).take hrun.1 hrun.2 (Nat.pos_of_ne_zero hcount)).wf hwf

lemma pmmAllocPages_serves (hwf : s.toPmm.Wf) {n : Nat} (hn : 1 ≤ n) :
  Serves s n (pmmAllocPages s n) ∧ (pmmAllocPages s n).2.toPmm.Wf := by
  have hrefine := pmmAllocPages_toPmm hwf n
  have hfail : (pmmAllocPages s n).1 = 0 → pmmAllocPages s n = (0, s) := by
    unfold pmmAllocPages
    split_ifs
    · exact fun _ => rfl
    split
    · exact fun _ => rfl
    · exact fun hzero => absurd hzero (frameToPhys_ne_zero _)
  rcases pmmAllocPages_cases s.toPmm n with ⟨heq, hwhy⟩ | ⟨f, hf, hfree, hlow, _, hcount, heq⟩
  · have hnone := hfail (Prod.mk.inj (hrefine.symm.trans heq)).1
    rw [hnone]
    refine ⟨.inl ⟨rfl, fun f hrun => ?_⟩, hwf⟩
    rcases hwhy with hzero | hfew | hnorun
    · omega
    · have hle : n ≤ s.toPmm.freeCount := hrun.le_freeCount hwf
      omega
    have hbusy := hnorun f (by have := hrun.1; omega)
    have hfree : runFree s.toPmm.bitmap f n = true := runFree_iff.mpr hrun.2
    rw [hfree] at hbusy
    cases hbusy
  obtain ⟨haddr, hstate⟩ := Prod.mk.inj (hrefine.symm.trans heq)
  have hle := hcount.trans (freeCount_le hwf)
  have hrun : FreeRun s f n := ⟨by omega, runFree_iff.mp hfree⟩
  refine ⟨serves_of_take hrun (fun g hg hrun' => ?_) haddr hstate, ?_⟩
  · have hbusy := hlow g hg
    have hfree' : runFree s.toPmm.bitmap g n = true := runFree_iff.mpr hrun'.2
    rw [hfree'] at hbusy
    cases hbusy
  rw [hstate]
  exact ((Holds.refl s.toPmm).take hrun.1 hrun.2 hcount).wf hwf

lemma pmmFreePage_releases (s : State) {addr : Nat} (haddr : addr < wordSize) :
  Releases s (· = addr) (pmmFreePage s addr) := by
  intro g hg
  have hat : (∃ a, a = addr ∧ InFrame a g) ↔ physToFrame addr = g := by
    rw [physToFrame_eq_iff haddr hg]
    simp
  rw [hat]
  unfold pmmFreePage
  dsimp only
  split_ifs with hused
  · change pmmTestBit (pmmClearBit s (physToFrame addr)) g = true ↔ _
    rw [testBit_clearBit]
    by_cases hfg : g = physToFrame addr
    · simp [hfg]
    · simp [hfg, Ne.symm hfg]
  refine ⟨fun hbit => ⟨hbit, ?_⟩, fun h => h.1⟩
  rintro rfl
  exact hused ⟨hg, hbit⟩

lemma Releases.trans {s s' s'' : State} {A B : Nat → Prop} (h : Releases s A s')
  (h' : Releases s' B s'') : Releases s (fun a => A a ∨ B a) s'' := by
  intro g hg
  rw [h' g hg, h g hg]
  constructor
  · rintro ⟨⟨hbit, hA⟩, hB⟩
    refine ⟨hbit, ?_⟩
    rintro ⟨a, ha | ha, hin⟩
    · exact hA ⟨a, ha, hin⟩
    · exact hB ⟨a, ha, hin⟩
  rintro ⟨hbit, hAB⟩
  exact ⟨⟨hbit, fun ⟨a, ha, hin⟩ => hAB ⟨a, .inl ha, hin⟩⟩,
    fun ⟨a, ha, hin⟩ => hAB ⟨a, .inr ha, hin⟩⟩

/-- The addresses `pmm_free_pages` goes through. -/
def pagesFrom (addr count a : Nat) : Prop := ∃ i < count, a = (addr + i * pageSize) % wordSize

lemma pmmFreePages_releases (s : State) (addr count : Nat) :
  Releases s (pagesFrom addr count) (pmmFreePages s addr count) := by
  induction count with
  | zero =>
    intro g _
    have hnone : ¬ ∃ a, pagesFrom addr 0 a ∧ InFrame a g := by
      rintro ⟨a, ⟨i, hi, _⟩, _⟩
      exact absurd hi (Nat.not_lt_zero i)
    exact ⟨fun hbit => ⟨hbit, hnone⟩, fun h => h.1⟩
  | succ n ih =>
    have hlast := ih.trans (pmmFreePage_releases (pmmFreePages s addr n)
      (Nat.mod_lt (addr + n * pageSize) (by decide)))
    intro g hg
    rw [pmmFreePages, hlast g hg]
    have hset : ∀ a, pagesFrom addr (n + 1) a ↔
        pagesFrom addr n a ∨ a = (addr + n * pageSize) % wordSize := by
      intro a
      constructor
      · rintro ⟨i, hi, ha⟩
        rcases Nat.lt_succ_iff_lt_or_eq.mp hi with hlt | rfl
        · exact .inl ⟨i, hlt, ha⟩
        · exact .inr ha
      rintro (⟨i, hi, ha⟩ | ha)
      · exact ⟨i, Nat.lt_succ_of_lt hi, ha⟩
      · exact ⟨n, Nat.lt_succ_self n, ha⟩
    simp only [hset]

lemma pmmFreePage_wf (hwf : s.toPmm.Wf) (addr : Nat) : (pmmFreePage s addr).toPmm.Wf := by
  rw [← pmmFreePage_toPmm hwf]
  exact hwf.freePage addr

lemma pmmFreePages_wf (hwf : s.toPmm.Wf) (addr count : Nat) :
  (pmmFreePages s addr count).toPmm.Wf := by
  induction count with
  | zero => exact hwf
  | succ n ih => exact pmmFreePage_wf ih _

end

lemma foldl_clearBit (frames : List Nat) : ∀ s : State, s.pmmFreeCount < wordSize →
    (∀ g, pmmTestBit (frames.foldl (fun s f => (pmmClearBit s f).countUp) s) g =
      (!decide (g ∈ frames) && pmmTestBit s g)) ∧
    (frames.foldl (fun s f => (pmmClearBit s f).countUp) s).pmmFreeCount =
      (s.pmmFreeCount + frames.length) % wordSize := by
  induction frames with
  | nil =>
    intro s hsmall
    refine ⟨fun g => by simp, (Nat.mod_eq_of_lt hsmall).symm⟩
  | cons f frames ih =>
    intro s hsmall
    obtain ⟨hbits, hcount⟩ := ih (pmmClearBit s f).countUp (Nat.mod_lt _ (by decide))
    rw [foldl_cons]
    refine ⟨fun g => ?_, ?_⟩
    · rw [hbits]
      change (_ && pmmTestBit (pmmClearBit s f) g) = _
      rw [testBit_clearBit]
      by_cases hg : g = f <;> simp [hg]
    rw [hcount]
    change ((s.pmmFreeCount + 1) % wordSize + frames.length) % wordSize = _
    rw [Nat.mod_add_mod, length_cons, Nat.add_assoc, Nat.add_comm 1]

lemma pmmInit_toPmm (s : State) :
  (∀ f < totalFrames, pmmTestBit (pmmInit s) f = Mem.pmmInit.bitmap f) ∧
    (pmmInit s).pmmFreeCount = Mem.pmmInit.freeCount := by
  obtain ⟨hbits, hcount⟩ := foldl_clearBit
    (List.range' reserveEndFrame (physToFrame ramEnd - reserveEndFrame))
    { pmmBitmap := fun i => if i < bitmapSize then 0xFF#8 else s.pmmBitmap i
      pmmTotalPages := ramSize / pageSize
      pmmFreeCount := 0 } (show 0 < wordSize by decide)
  refine ⟨fun f hf => ?_, hcount.trans ?_⟩
  · have hfull :
        Words.test (fun i => if i < bitmapSize then 0xFF#8 else s.pmmBitmap i) f = true := by
      have hbyte : f / 8 < bitmapSize := by
        simp only [bitmapSize, totalFrames, ramSize, pageSize] at hf ⊢
        omega
      have hall : ∀ i < 8, (0xFF#8).getLsbD i = true := by decide
      simp only [Words.test, hbyte, if_true]
      exact hall _ (Nat.mod_lt f (by decide))
    refine (hbits f).trans ?_
    rw [pmmTestBit_eq]
    simp only [hfull, Bool.and_true, mem_range'_1, Mem.pmmInit, fillRange]
    split_ifs with hin <;> simp [hin]
  rw [length_range']
  change (0 + (physToFrame ramEnd - reserveEndFrame)) % wordSize =
    physToFrame ramEnd - reserveEndFrame
  decide

lemma pmmInit_wf (s : State) : (pmmInit s).toPmm.Wf := by
  obtain ⟨hbits, hcount⟩ := pmmInit_toPmm s
  have hset : (pmmInit s).toPmm.freeFrames = Mem.pmmInit.freeFrames := by
    ext f
    rw [Pmm.mem_freeFrames, Pmm.mem_freeFrames]
    refine and_congr_right fun hf => ?_
    rw [State.toPmm_bitmap, hbits f hf]
  unfold Pmm.Wf
  rw [hset, State.toPmm_freeCount, hcount]
  exact Mem.pmmInit_wf

inductive Event
  | allocPage
  | allocPages (count : Nat)
  | freePage (addr : Nat)
  | freePages (addr count : Nat)

def react (s : State) : Event → State
  | .allocPage => (pmmAllocPage s).2
  | .allocPages count => (pmmAllocPages s count).2
  | .freePage addr => pmmFreePage s addr
  | .freePages addr count => pmmFreePages s addr count

def Event.Admitted : Event → Prop
  | .allocPage => True
  | .allocPages count => 1 ≤ count ∧ count < wordSize
  | .freePage addr => addr < wordSize
  | .freePages addr count => addr < wordSize ∧ count < wordSize

def pmmMachine : Machine State Event where
  init s := ∃ before, s = pmmInit before
  enabled _ e := e.Admitted
  step := react

/-- Step lemma: every call keeps the counter right. -/
lemma react_wf {s : State} (hwf : s.toPmm.Wf) {e : Event} (he : e.Admitted) :
  (react s e).toPmm.Wf := by
  cases e with
  | allocPage => exact (pmmAllocPage_serves hwf).2
  | allocPages count => exact (pmmAllocPages_serves hwf he.1).2
  | freePage addr => exact pmmFreePage_wf hwf addr
  | freePages addr count => exact pmmFreePages_wf hwf addr count

lemma wf_of_reachable {s : State} (hs : pmmMachine.Reachable s) : s.toPmm.Wf := by
  refine hs.invariant (fun s => s.toPmm.Wf) ?_ fun s e hwf he => react_wf hwf he
  rintro s ⟨before, hs⟩
  rw [hs]
  exact pmmInit_wf before

/-- In every state reached after `pmm_init`, the counter is the number of clear bits, every
request is served with the lowest run of free frames or refused for want of one, and every free
releases the used frames it addresses. -/
theorem page_allocator_exact {s : State} (hs : pmmMachine.Reachable s) :
  s.pmmFreeCount = ((Finset.range totalFrames).filter fun f => pmmTestBit s f = false).card ∧
    s.pmmFreeCount ≤ totalFrames ∧
    Serves s 1 (pmmAllocPage s) ∧
    (∀ n, 1 ≤ n → n < wordSize → Serves s n (pmmAllocPages s n)) ∧
    (∀ addr < wordSize, Releases s (· = addr) (pmmFreePage s addr)) ∧
    ∀ addr < wordSize, ∀ count < wordSize,
      Releases s (pagesFrom addr count) (pmmFreePages s addr count) := by
  have hwf := wf_of_reachable hs
  exact ⟨hwf, freeCount_le hwf, (pmmAllocPage_serves hwf).1,
    fun n hn _ => (pmmAllocPages_serves hwf hn).1,
    fun addr haddr => pmmFreePage_releases s haddr,
    fun addr _ count _ => pmmFreePages_releases s addr count⟩

/-- After boot and a request for a 4 MB chunk. -/
theorem page_allocator_exact_chunk :
  let s := react (pmmInit ⟨fun _ => 0, 0, 0⟩) (.allocPages 1024)
  pmmMachine.Reachable s ∧ Serves s 1024 (pmmAllocPages s 1024) := by
  have hboot : pmmMachine.Reachable (pmmInit ⟨fun _ => 0, 0, 0⟩) :=
    Machine.reachable_of_init ⟨_, rfl⟩
  have hreach : pmmMachine.Reachable (pmmMachine.step _ (.allocPages 1024)) :=
    hboot.step ⟨by decide, by decide⟩
  exact ⟨hreach, (page_allocator_exact hreach).2.2.2.1 1024 (by decide) (by decide)⟩

end Aeos.Mem.Bytes
