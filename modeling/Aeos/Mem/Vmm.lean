/-
# Address spaces

The per-process page tables of `boot/aarch64/vmm.c`. Table pages come from a page source,
address-space records from the heap. Barriers and TLB maintenance leave no trace here:
translation always reads the tables as they are.
-/

import Aeos.Lib.TableWalk
import Aeos.Mem.Heap

namespace Aeos.Mem

open Lib Function
universe u

/-- Something that hands out physical pages; address `0` means failure. A page
handed out was available and is no longer, and nothing else becomes available. -/
class PageSource (P : Type u) where
  allocPage : P → Nat × P
  Available : P → Nat → Prop
  aligned : ∀ {p a}, Available p a → a % 2 ^ 12 = 0
  bounded : ∀ {p a}, Available p a → a < 2 ^ 48
  alloc_available : ∀ {p}, (allocPage p).1 ≠ 0 → Available p (allocPage p).1
  alloc_taken : ∀ {p}, (allocPage p).1 ≠ 0 → ¬ Available (allocPage p).2 (allocPage p).1
  available_of_alloc : ∀ {p a}, Available (allocPage p).2 a → Available p a

abbrev Pmm.Available (p : Pmm) (a : Nat) : Prop :=
  ∃ f < totalFrames, a = frameToPhys f ∧ p.bitmap f = false

variable {p : Pmm} {a : Nat}

lemma Pmm.Available.aligned (h : p.Available a) : a % 2 ^ 12 = 0 := by
  obtain ⟨f, _, rfl, _⟩ := h
  simp only [frameToPhys, pageSize, ramStart]
  omega

lemma Pmm.Available.bounded (h : p.Available a) : a < 2 ^ 48 := by
  obtain ⟨f, hf, rfl, _⟩ := h
  simp only [frameToPhys, pageSize, ramStart, totalFrames, ramSize] at hf ⊢
  omega

lemma pmmAllocPage_available (hne : (pmmAllocPage p).1 ≠ 0) : p.Available (pmmAllocPage p).1 := by
  rcases pmmAllocPage_cases p with ⟨heq, _⟩ | ⟨f, hf, hfree, _, _, heq⟩
  · exact absurd (by rw [heq]) hne
  · exact ⟨f, hf, by rw [heq], hfree⟩

lemma pmmAllocPage_taken (hne : (pmmAllocPage p).1 ≠ 0) :
  ¬ (pmmAllocPage p).2.Available (pmmAllocPage p).1 := by
  rintro ⟨g, hg, haddr, hfree⟩
  rcases pmmAllocPage_cases p with ⟨heq, _⟩ | ⟨f, hf, _, _, _, heq⟩
  · exact hne (by rw [heq])
  rw [heq] at haddr hfree
  have hfg : f = g := by
    rw [← physToFrame_frameToPhys hf, ← physToFrame_frameToPhys hg]
    exact congrArg physToFrame haddr
  rw [hfg, Pmm.take_bitmap, if_pos ⟨le_rfl, Nat.lt_succ_self g⟩] at hfree
  cases hfree

lemma available_of_pmmAllocPage (h : (pmmAllocPage p).2.Available a) : p.Available a := by
  obtain ⟨g, hg, rfl, hfree⟩ := h
  refine ⟨g, hg, rfl, ?_⟩
  rcases pmmAllocPage_cases p with ⟨heq, _⟩ | ⟨f, _, _, _, _, heq⟩
  · rw [heq] at hfree
    exact hfree
  rw [heq] at hfree
  rw [Pmm.take_bitmap] at hfree
  split_ifs at hfree
  exact hfree

/-- The page allocator: a page is available when its bit is clear. -/
instance : PageSource Pmm where
  allocPage := pmmAllocPage
  Available := Pmm.Available
  aligned := Pmm.Available.aligned
  bounded := Pmm.Available.bounded
  alloc_available := pmmAllocPage_available
  alloc_taken := pmmAllocPage_taken
  available_of_alloc := available_of_pmmAllocPage

/-! ## State -/

def pteValid : Nat := 1

def pteTable : Nat := 3

def userBlockRwx : Nat := 1 <<< 10 ||| 1 <<< 2 ||| 3 <<< 8 ||| 1 <<< 5

def asMaxTables : Nat := 16

def addrSpaceSize : Nat := 160

/-- `struct addr_space`. `tables` is the used part of the array, so `table_count`
is its length. -/
structure AddrSpace where
  pgd : Nat
  tables : List Nat
  userRegion : Nat
  self : Nat
  deriving DecidableEq

/-- Where the linker put `kernel_pgd`, `kernel_pud` and `kernel_pmd`: three
page-aligned static arrays. -/
structure KernelTables where
  pgd : Nat
  pud : Nat
  pmd : Nat
  pud_aligned : pud % 2 ^ 12 = 0
  pmd_aligned : pmd % 2 ^ 12 = 0
  pud_bounded : pud < 2 ^ 48
  pmd_bounded : pmd < 2 ^ 48
  pgd_ne_pud : pgd ≠ pud
  pgd_ne_pmd : pgd ≠ pmd

def KernelTables.Has (k : KernelTables) (a : Nat) : Prop := a = k.pgd ∨ a = k.pud ∨ a = k.pmd

/-- Memory management state: page source, heap, table pages, address-space
records by address, and `as_active`. -/
structure Mm (P : Type u) where
  pmm : P
  heap : Heap
  mem : TableMem
  spaces : Nat → AddrSpace
  /-- `0` encodes the kernel address space. -/
  asActive : Nat

def Mm.setSpace {P : Type u} (s : Mm P) (as : Nat) (f : AddrSpace → AddrSpace) : Mm P :=
  { s with spaces := update s.spaces as (f (s.spaces as)) }

section
variable {P : Type u} [PageSource P]

def asAllocTable (s : Mm P) (as : Nat) : Nat × Mm P :=
  let page := PageSource.allocPage s.pmm
  if page.1 = 0 ∨ asMaxTables ≤ (s.spaces as).tables.length then
    (0, { s with pmm := page.2 })
  else
    (page.1,
      { s with
        pmm := page.2
        mem := update s.mem page.1 fun _ => 0
        spaces := update s.spaces as
          { s.spaces as with tables := (s.spaces as).tables ++ [page.1] } })

def asCreate (k : KernelTables) (s : Mm P) : Nat × Mm P :=
  let block := kmalloc s.heap addrSpaceSize
  if block.1 = 0 then (0, { s with heap := block.2 })
  else
    let s := { s with heap := block.2 }
    let s := s.setSpace block.1 fun _ => ⟨0, [], 0, block.1⟩
    let pgd := asAllocTable s block.1
    if pgd.1 = 0 then (0, pgd.2)
    else
      let s := pgd.2.setSpace block.1 fun sp => { sp with pgd := pgd.1 }
      (block.1, { s with mem := update s.mem pgd.1 (s.mem k.pgd) })

def nextTable (s : Mm P) (as table i : Nat) : Option Nat × Mm P :=
  if s.mem table i &&& pteTable = 0 then
    let next := asAllocTable s as
    if next.1 = 0 then (none, next.2)
    else
      (some next.1,
        { next.2 with
          mem := setEntry next.2.mem table i (next.1 &&& bitsFrom 12 64 ||| pteTable) })
  else (some (s.mem table i &&& bitsFrom 12 64), s)

def asMapBlock (s : Mm P) (as va pa attrs : Nat) : Int × Mm P :=
  if as = 0 ∨ (s.spaces as).self ≠ as ∨ va &&& 0x1FFFFF ≠ 0 ∨ pa &&& 0x1FFFFF ≠ 0 then
    (-1, s)
  else if asMaxTables - 2 ≤ (s.spaces as).tables.length then (-1, s)
  else
    match nextTable s as (s.spaces as).pgd (tableIndex 3 va) with
    | (none, s) => (-1, s)
    | (some pud, s) =>
      match nextTable s as pud (tableIndex 2 va) with
      | (none, s) => (-1, s)
      | (some pmd, s) =>
        (0,
          { s with
            mem := setEntry s.mem pmd (tableIndex 1 va)
              (pa &&& bitsFrom 21 64 ||| attrs ||| pteValid) })

end

section
variable {P : Type u} [PageSource P]

def Heap.afterSpace (h : Heap) : Heap where
  ptr := h.ptr + addrSpaceSize
  used := (h.used + addrSpaceSize) % wordSize

lemma asCreate_cases (k : KernelTables) {s : Mm P} (hpos : 0 < s.heap.ptr)
  (hptr : s.heap.ptr ≤ heapEnd) : (heapEnd < s.heap.ptr + addrSpaceSize ∧ asCreate k s = (0, s)) ∨
    (s.heap.ptr + addrSpaceSize ≤ heapEnd ∧ (((PageSource.allocPage s.pmm).1 = 0 ∧ asCreate k s =
            (0, { s with
                heap := s.heap.afterSpace
                pmm := (PageSource.allocPage s.pmm).2
                spaces := update s.spaces s.heap.ptr ⟨0, [], 0, s.heap.ptr⟩ })) ∨
        ∃ a, (PageSource.allocPage s.pmm).1 = a ∧ a ≠ 0 ∧
          asCreate k s =
            (s.heap.ptr,
              { s with
                heap := s.heap.afterSpace
                pmm := (PageSource.allocPage s.pmm).2
                mem := update s.mem a
                  (update s.mem a (fun _ => 0) k.pgd)
                spaces := update s.spaces s.heap.ptr
                  ⟨a, [a], 0, s.heap.ptr⟩ }))) := by
  rcases kmalloc_cases hptr (show 0 < addrSpaceSize by decide) (by decide) with
    ⟨hfail, hfull⟩ | ⟨hfit, hok⟩
  · refine .inl ⟨hfull, ?_⟩
    simp only [asCreate, hfail, if_true]
  refine .inr ⟨hfit, ?_⟩
  have hne := hpos.ne'
  have hheap : kmalloc s.heap addrSpaceSize = (s.heap.ptr, s.heap.afterSpace) := hok
  by_cases hpage : (PageSource.allocPage s.pmm).1 = 0
  · refine .inl ⟨hpage, ?_⟩
    simp [asCreate, hheap, hne, asAllocTable, hpage, Mm.setSpace]
  refine .inr ⟨_, rfl, hpage, ?_⟩
  simp [asCreate, hheap, hne, asAllocTable, hpage, Mm.setSpace, asMaxTables]

end

/-! ## Switching and releasing -/

def asSwitch {P : Type u} (s : Mm P) (as : Nat) : Mm P := { s with asActive := as }

def asDestroy (s : Mm Pmm) (as : Nat) : Mm Pmm :=
  if as = 0 ∨ (s.spaces as).self ≠ as then s
  else
    let sp := s.spaces as
    let pmm := if sp.userRegion ≠ 0 then pmmFreePages s.pmm sp.userRegion 512 else s.pmm
    let s := { s with pmm := sp.tables.foldl pmmFreePage pmm }
    let s := if s.asActive = as then asSwitch s 0 else s
    s.setSpace as fun sp => { sp with self := 0 }

/-! ## Kernel tables -/

def mapBlock (k : KernelTables) (mem : TableMem) (va pa attrs : Nat) : TableMem :=
  let mem := setEntry mem k.pgd (tableIndex 3 va) (k.pud ||| pteTable)
  let mem := setEntry mem k.pud (tableIndex 2 va) (k.pmd ||| pteTable)
  setEntry mem k.pmd (tableIndex 1 va) (pa &&& bitsFrom 21 64 ||| attrs)

def kernelBlocks : List (Nat × Nat) :=
  [0x08000000, 0x09000000, 0x0A000000].map (fun a => (a, 1 <<< 10 ||| 1)) ++
    (List.range 64).map fun i =>
      (0x40000000 + i * 0x200000, 1 <<< 10 ||| 1 <<< 2 ||| 1 <<< 5 ||| 3 <<< 8 ||| 1)

def vmmInit (k : KernelTables) (mem : TableMem) : TableMem :=
  let mem := update mem k.pgd fun _ => 0
  let mem := update mem k.pud fun _ => 0
  let mem := update mem k.pmd fun _ => 0
  kernelBlocks.foldl (fun mem block => mapBlock k mem block.1 block.1 block.2) mem

end Aeos.Mem
