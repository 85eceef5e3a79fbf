/-
# The page allocator against the heap

`pmm_init` means to keep clear of the heap but reserves only 18 MB past `KERNEL_BASE`,
while the heap occupies the 16 MB that start 16 MB past it.
-/

import Aeos.Mem.Heap

namespace Aeos.Mem.Separation

open Lib List Option

/-- Both allocators, with what they have handed out so far. -/
structure State where
  pmm : Pmm
  heap : Heap
  /-- Runs of pages returned by the page allocator: address and page count. -/
  pages : List (Nat × Nat)
  /-- Blocks returned by the heap: address and size. -/
  blocks : List (Nat × Nat)

inductive Event
  | allocPage
  | allocPages (count : Nat)
  | freePage (addr : Nat)
  | freePages (addr count : Nat)
  | kmalloc (size : Nat)
  | kmallocAligned (size align : Nat)

def record (given : List (Nat × Nat)) (addr size : Nat) : List (Nat × Nat) :=
  if addr = 0 then given else (addr, size) :: given

def react (s : State) : Event → State
  | .allocPage =>
    { s with
      pmm := (pmmAllocPage s.pmm).2
      pages := record s.pages (pmmAllocPage s.pmm).1 1 }
  | .allocPages count =>
    { s with
      pmm := (pmmAllocPages s.pmm count).2
      pages := record s.pages (pmmAllocPages s.pmm count).1 count }
  | .freePage addr => { s with pmm := pmmFreePage s.pmm addr }
  | .freePages addr count => { s with pmm := pmmFreePages s.pmm addr count }
  | .kmalloc size =>
    { s with
      heap := (kmalloc s.heap size).2
      blocks := record s.blocks (kmalloc s.heap size).1 size }
  | .kmallocAligned size align =>
    { s with
      heap := (kmallocAligned s.heap size align).2
      blocks := record s.blocks (kmallocAligned s.heap size align).1 size }

def Obtained (s : State) (addr : Nat) : Prop :=
  ∃ run ∈ s.pages, ∃ i < run.2, addr = run.1 + i * pageSize

def admits (s : State) : Event → Prop
  | .freePage addr => Obtained s addr
  | .freePages addr count => ∀ i < count, Obtained s (addr + i * pageSize)
  | .kmalloc size => size < 2 ^ 32
  | .kmallocAligned size _ => size < 2 ^ 32
  | _ => True

/-- Both allocators right after `pmm_init` and `heap_init`. -/
def bootState : State where
  pmm := pmmInit
  heap := heapInit
  pages := []
  blocks := []

/-- Every interleaving of calls to the two allocators after boot. -/
def machine : Machine State Event where
  init s := s = bootState
  enabled := admits
  step := react

/-- No page returned so far overlaps a heap block returned so far, nor the heap
range. -/
def Separated (s : State) : Prop :=
  ∀ run ∈ s.pages, ¬ Overlaps run.1 (run.2 * pageSize) heapStart heapSize ∧
    ∀ block ∈ s.blocks, ¬ Overlaps run.1 (run.2 * pageSize) block.1 block.2

/-- How many pages an event asks the page allocator for. -/
def pagesAsked : Event → Option Nat
  | .allocPage => some 1
  | .allocPages count => some count
  | _ => none

lemma pmmAllocPages_boot {count : Nat} (hpos : count ≠ 0) (hle : count ≤ bootFrames) :
  (pmmAllocPages pmmInit count).1 = frameToPhys reserveEndFrame := by
  have hsize : reserveEndFrame + bootFrames = totalFrames := by decide
  have hrun : runFree pmmInit.bitmap reserveEndFrame count = true := by
    rw [runFree_iff]
    intro i hi
    have hnot := (pmmInit_bitmap (reserveEndFrame + i) (by omega)).not
    simpa using hnot.mpr (by omega)
  rcases pmmAllocPages_cases pmmInit count with ⟨_, hfail⟩ | ⟨f, hf, hfree, hbelow, _, _, heq⟩
  · rcases hfail with h | h | h
    · exact absurd h hpos
    · rw [pmmInit_freeCount] at h
      omega
    have hno := h reserveEndFrame (by omega)
    rw [hrun] at hno
    cases hno
  rw [heq]
  -- First fit: nothing below the reserved zone is free, and that frame fits.
  have hlow : ¬ reserveEndFrame < f := fun hlt => by
    have hno := hbelow reserveEndFrame hlt
    rw [hrun] at hno
    cases hno
  have hhigh : ¬ f < reserveEndFrame := fun hlt => by
    have hused := (pmmInit_bitmap f (by omega)).mpr hlt
    have hclear := runFree_iff.mp hfree 0 (by omega)
    rw [Nat.add_zero, hused] at hclear
    cases hclear
  have hf' : f = reserveEndFrame := by omega
  subst hf'
  rfl

lemma pmmAllocPage_boot : (pmmAllocPage pmmInit).1 = frameToPhys reserveEndFrame := by
  have hlt : reserveEndFrame < totalFrames := by decide
  have hclear : pmmInit.bitmap reserveEndFrame = false := by
    simpa using (pmmInit_bitmap reserveEndFrame hlt).not.mpr (by omega)
  rcases pmmAllocPage_cases pmmInit with ⟨_, hfail⟩ | ⟨f, hf, hfree, hbelow, _, heq⟩
  · rcases hfail with h | h
    · exact absurd h (by decide)
    rw [h _ hlt] at hclear
    cases hclear
  rw [heq]
  have hlow : ¬ reserveEndFrame < f := fun hgt => by
    rw [hbelow _ hgt] at hclear
    cases hclear
  have hhigh : ¬ f < reserveEndFrame := fun hbelow' => by
    rw [(pmmInit_bitmap f hf).mpr hbelow'] at hfree
    cases hfree
  have hf' : f = reserveEndFrame := by omega
  subst hf'
  rfl

/-! ## The two kinds of run -/

def Untouched (s : State) : Prop := s.pmm = pmmInit ∧ s.pages = []

def Clashed (s : State) : Prop :=
  ∃ count, count ≠ 0 ∧ (frameToPhys reserveEndFrame, count) ∈ s.pages

variable {s : State}

lemma not_separated_of_clashed (hclash : Clashed s) : ¬ Separated s := by
  obtain ⟨count, hpos, hmem⟩ := hclash
  intro hsep
  apply (hsep _ hmem).1
  refine ⟨frameToPhys reserveEndFrame, le_rfl, ?_, by decide, by decide⟩
  have hpage : 0 < count * pageSize := Nat.mul_pos (Nat.pos_of_ne_zero hpos) (by decide)
  dsimp only
  omega

variable {run : Nat × Nat}

lemma mem_record_of_mem {given : List (Nat × Nat)} (hmem : run ∈ given)
  (addr size : Nat) : run ∈ record given addr size := by
  unfold record
  split
  · exact hmem
  · exact mem_cons_of_mem _ hmem

lemma mem_pages_react (hmem : run ∈ s.pages) (e : Event) : run ∈ (react s e).pages := by
  obtain ⟨pmm, heap, pages, blocks⟩ := s
  cases e with
  | allocPage | allocPages => exact mem_record_of_mem hmem _ _
  | freePage | freePages | kmalloc | kmallocAligned => exact hmem

lemma clashed_step (e : Event) (hclash : Clashed s) : Clashed (react s e) := by
  obtain ⟨count, hpos, hmem⟩ := hclash
  exact ⟨count, hpos, mem_pages_react hmem e⟩

lemma clashed_of_asked {e : Event} {count : Nat} (huntouched : Untouched s)
  (hasked : pagesAsked e = some count) (hpos : count ≠ 0) (hle : count ≤ bootFrames) :
  Clashed (react s e) := by
  obtain ⟨hpmm, _⟩ := huntouched
  refine ⟨count, hpos, ?_⟩
  cases e with
  | allocPage =>
    obtain rfl : 1 = count := some.inj hasked
    simp only [react, hpmm, pmmAllocPage_boot, record, frameToPhys_ne_zero, if_false]
    exact mem_cons_self
  | allocPages n =>
    obtain rfl : n = count := some.inj hasked
    simp only [react, hpmm, pmmAllocPages_boot hpos hle, record, frameToPhys_ne_zero, if_false]
    exact mem_cons_self
  | freePage | freePages | kmalloc | kmallocAligned => cases hasked

lemma untouched_step {e : Event} (huntouched : Untouched s) (hadmits : admits s e)
  (hasked : ∀ count, pagesAsked e = some count → count = 0 ∨ bootFrames < count) :
  Untouched (react s e) := by
  obtain ⟨pmm, heap, pages, blocks⟩ := s
  obtain ⟨hpmm, hpages⟩ : pmm = pmmInit ∧ pages = [] := huntouched
  cases e with
  | allocPage => exact absurd (hasked 1 rfl) (by decide)
  | allocPages count =>
    have hfail : pmmAllocPages pmmInit count = (0, pmmInit) := by
      rcases pmmAllocPages_cases pmmInit count with ⟨heq, _⟩ | ⟨_, _, _, _, hpos, hle, _⟩
      · exact heq
      rw [pmmInit_freeCount] at hle
      have hcount := hasked count rfl
      omega
    simp [Untouched, react, hpmm, hpages, hfail, record]
  | freePage addr =>
    obtain ⟨run, hmem, _⟩ := hadmits
    rw [hpages] at hmem
    cases hmem
  | freePages addr count =>
    cases count with
    | zero => exact ⟨hpmm, hpages⟩
    | succ count =>
      obtain ⟨run, hmem, _⟩ := hadmits 0 (Nat.succ_pos _)
      rw [hpages] at hmem
      cases hmem
  | kmalloc | kmallocAligned => exact ⟨hpmm, hpages⟩

/-- Run lemma: from an untouched allocator, a run clashes exactly when it asks
for pages that can be served. -/
lemma run_from_untouched {t : State} {es : List Event} (hrun : machine.Run s es t)
  (huntouched : Untouched s) : (Untouched t ∧ ∀ e ∈ es, ∀ count, pagesAsked e = some count →
      count = 0 ∨ bootFrames < count) ∨
    (Clashed t ∧ ∃ e ∈ es, ∃ count, pagesAsked e = some count ∧ count ≠ 0 ∧
      count ≤ bootFrames) := by
  induction hrun with
  | nil s => exact .inl ⟨huntouched, by simp⟩
  | @cons s t e es hadmits hrest ih =>
    by_cases hasked : ∀ count, pagesAsked e = some count → count = 0 ∨ bootFrames < count
    · rcases ih (untouched_step huntouched hadmits hasked) with ⟨ht, hall⟩ | ⟨ht, e', he', hbad⟩
      · refine .inl ⟨ht, fun e' he' => ?_⟩
        rcases mem_cons.mp he' with rfl | hmem
        · exact hasked
        · exact hall e' hmem
      · exact .inr ⟨ht, e', mem_cons_of_mem _ he', hbad⟩
    simp only [not_forall, not_or, not_lt] at hasked
    obtain ⟨count, hcount, hpos, hle⟩ := hasked
    have hnow := clashed_of_asked huntouched hcount hpos hle
    exact .inr ⟨hrest.invariant Clashed (fun _ e h _ => clashed_step e h) hnow,
      e, mem_cons_self, count, hcount, hpos, hle⟩

/-- In every run after boot, page allocator and heap are separate if and only if every request for
pages is for none or for more than there are. -/
theorem separated_iff_no_page_served {t : State} {es : List Event}
  (hrun : machine.Run bootState es t) :
  Separated t ↔
    ∀ e ∈ es, ∀ count, pagesAsked e = some count → count = 0 ∨ bootFrames < count := by
  rcases run_from_untouched hrun ⟨rfl, rfl⟩ with ⟨⟨_, hpages⟩, hall⟩ | ⟨hclash, e, he, hbad⟩
  · exact ⟨fun _ => hall, fun _ run hmem => by rw [hpages] at hmem; cases hmem⟩
  obtain ⟨count, hcount, hpos, hle⟩ := hbad
  refine ⟨fun hsep => absurd hsep (not_separated_of_clashed hclash), fun hall => ?_⟩
  rcases hall e he count hcount with h | h <;> omega

/-- A heap block and a request too large to serve: the allocators stay apart. -/
theorem separated_iff_no_page_served_large :
  ∃ t, machine.Run bootState [.kmalloc 128, .allocPages 40000] t ∧ Separated t := by
  have hrun : machine.Run bootState [.kmalloc 128, .allocPages 40000]
      (react (react bootState (.kmalloc 128)) (.allocPages 40000)) :=
    .cons (show (128 : Nat) < 2 ^ 32 by decide) (.cons trivial (.nil _))
  refine ⟨_, hrun, (separated_iff_no_page_served hrun).mpr ?_⟩
  intro e he count hcount
  simp only [mem_cons, not_mem_nil, or_false] at he
  rcases he with rfl | rfl
  · cases hcount
  obtain rfl : 40000 = count := some.inj hcount
  exact .inr (by decide)

/-- The first page handed out after boot lies inside the heap. -/
theorem first_page_inside_heap : ¬ ∀ es t, machine.Run bootState es t → Separated t := by
  intro hall
  have hrun : machine.Run bootState [.allocPage] (react bootState .allocPage) :=
    .cons trivial (.nil _)
  exact not_separated_of_clashed
    (clashed_of_asked ⟨rfl, rfl⟩ rfl Nat.one_ne_zero (by decide)) (hall _ _ hrun)

end Aeos.Mem.Separation
