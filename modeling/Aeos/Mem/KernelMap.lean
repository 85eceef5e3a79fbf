/-
# What the kernel's own tables map

`vmm_init` puts every block into the same PUD and the same PMD.
-/

import Aeos.Mem.Mapping

namespace Aeos.Mem

open Lib List Option Function

def vmmGetPhys (k : KernelTables) (mem : TableMem) (virt : Nat) : Nat :=
  let pgdEntry := mem k.pgd (tableIndex 3 virt)
  if pgdEntry &&& pteValid = 0 then 0
  else
    let pudEntry := mem (pgdEntry &&& bitsFrom 12 64) (tableIndex 2 virt)
    if pudEntry &&& pteValid = 0 then 0
    else
      let e := mem (pudEntry &&& bitsFrom 12 64) (tableIndex 1 virt)
      if e &&& pteValid = 0 then 0
      else if e &&& 3 = 1 then e &&& bitsFrom 21 64 ||| virt &&& 0x1FFFFF
      else
        let pe := mem (e &&& bitsFrom 12 64) (tableIndex 0 virt)
        if pe &&& pteValid = 0 then 0 else pe &&& bitsFrom 12 64 ||| virt &&& 0xFFF

/-! ## The tables after `vmm_init` -/

section
variable {k : KernelTables} {index : Nat → Nat} {entry : Nat × Nat → Nat}

lemma foldl_mapBlock_row {table : Nat}
  (hstore : ∀ mem block, mapBlock k mem block.1 block.1 block.2 table =
    update (mem table) (index block.1) (entry block)) (blocks : List (Nat × Nat)) (mem : TableMem) :
  blocks.foldl (fun mem block => mapBlock k mem block.1 block.1 block.2) mem table =
    blocks.foldl (fun row block => update row (index block.1) (entry block)) (mem table) := by
  induction blocks generalizing mem with
  | nil => rfl
  | cons block blocks ih => rw [foldl_cons, foldl_cons, ih, hstore]

lemma foldl_update (value : Nat → Nat)
  (blocks : List (Nat × Nat)) (hentry : ∀ block ∈ blocks, entry block = value (index block.1))
  (row : Nat → Nat) (j : Nat) :
  blocks.foldl (fun row block => update row (index block.1) (entry block)) row j =
    if ∃ block ∈ blocks, index block.1 = j then value j else row j := by
  induction blocks generalizing row with
  | nil => simp
  | cons block blocks ih =>
    rw [foldl_cons, ih fun b hb => hentry b (mem_cons_of_mem _ hb)]
    by_cases hlater : ∃ b ∈ blocks, index b.1 = j
    · rw [if_pos hlater, if_pos (hlater.imp fun b hb => ⟨mem_cons_of_mem _ hb.1, hb.2⟩)]
    rw [if_neg hlater]
    by_cases hhere : index block.1 = j
    · rw [if_pos ⟨block, mem_cons_self, hhere⟩, hentry block mem_cons_self, hhere,
        update_self]
    rw [update_of_ne (Ne.symm hhere), if_neg]
    rintro ⟨b, hb, hj⟩
    rcases mem_cons.mp hb with rfl | hb
    · exact hhere hj
    · exact hlater ⟨b, hb, hj⟩

lemma vmmInit_pud (hne : k.pud ≠ k.pmd) (mem : TableMem) (j : Nat) :
  vmmInit k mem k.pud j = if j ≤ 1 then k.pmd ||| pteTable else 0 := by
  have hstore : ∀ (mem : TableMem) (block : Nat × Nat),
      mapBlock k mem block.1 block.1 block.2 k.pud =
        update (mem k.pud) (tableIndex 2 block.1) (k.pmd ||| pteTable) := by
    intro mem block
    unfold mapBlock
    rw [setEntry_of_ne _ _ _ hne, setEntry_same, setEntry_of_ne _ _ _ k.pgd_ne_pud.symm]
  have hslots : (∃ block ∈ kernelBlocks, tableIndex 2 block.1 = j) ↔ j ≤ 1 := by
    constructor
    · rintro ⟨block, hblock, rfl⟩
      have hall : ∀ block ∈ kernelBlocks, tableIndex 2 block.1 ≤ 1 := by decide
      exact hall block hblock
    intro hj
    obtain rfl | rfl : j = 0 ∨ j = 1 := by omega
    · decide
    · decide
  unfold vmmInit
  rw [foldl_mapBlock_row hstore,
    foldl_update (fun _ => k.pmd ||| pteTable) kernelBlocks fun _ _ => rfl,
    update_of_ne hne, update_self]
  simp only [hslots]

def blockAt (i : Nat) : Option Nat :=
  if i < 64 then some (0x40000000 + i * 0x200000)
  else if i = 64 ∨ i = 72 ∨ i = 80 then some (i * 0x200000)
  else none

def blockAttrs (i : Nat) : Nat :=
  if i < 64 then 1 <<< 10 ||| 1 <<< 2 ||| 1 <<< 5 ||| 3 <<< 8 ||| 1 else 1 <<< 10 ||| 1

lemma kernelBlocks_pmd (i : Nat) :
  kernelBlocks.foldl (fun row block => update row (tableIndex 1 block.1)
    (block.1 &&& bitsFrom 21 64 ||| block.2)) (fun _ => 0) i =
    (blockAt i).elim 0 fun a => a + blockAttrs i := by
  have hentry : ∀ block ∈ kernelBlocks, block.1 &&& bitsFrom 21 64 ||| block.2 =
      (blockAt (tableIndex 1 block.1)).elim 0 fun a => a + blockAttrs (tableIndex 1 block.1) := by
    decide +kernel
  have hslots : (kernelBlocks.map fun block => tableIndex 1 block.1) =
      [64, 72, 80] ++ List.range 64 := by
    decide +kernel
  rw [foldl_update (fun i => (blockAt i).elim 0 fun a => a + blockAttrs i) kernelBlocks hentry]
  split_ifs with hstored
  · rfl
  have hmem : i ∉ [64, 72, 80] ++ List.range 64 := by
    rw [← hslots, List.mem_map]
    exact hstored
  simp only [mem_append, mem_range, mem_cons, not_mem_nil, or_false] at hmem
  rw [blockAt, if_neg (by omega), if_neg (by omega)]
  rfl

lemma vmmInit_pmd (hne : k.pud ≠ k.pmd) (mem : TableMem) (i : Nat) :
  vmmInit k mem k.pmd i = (blockAt i).elim 0 fun a => a + blockAttrs i := by
  have hstore : ∀ (mem : TableMem) (block : Nat × Nat),
      mapBlock k mem block.1 block.1 block.2 k.pmd =
        update (mem k.pmd) (tableIndex 1 block.1)
          (block.1 &&& bitsFrom 21 64 ||| block.2) := by
    intro mem block
    unfold mapBlock
    rw [setEntry_same, setEntry_of_ne _ _ _ hne.symm, setEntry_of_ne _ _ _ k.pgd_ne_pmd.symm]
  unfold vmmInit
  rw [foldl_mapBlock_row hstore, update_self]
  exact kernelBlocks_pmd i

end

lemma blockAt_some {i a : Nat} (h : blockAt i = some a) : (i < 64 ∧ a = 0x40000000 + i * 0x200000) ∨
    ((i = 64 ∨ i = 72 ∨ i = 80) ∧ a = i * 0x200000) := by
  rw [blockAt] at h
  split_ifs at h with hram hdevice
  · exact .inl ⟨hram, (some.inj h).symm⟩
  · exact .inr ⟨hdevice, (some.inj h).symm⟩

lemma blockAt_none {i : Nat} (h : blockAt i = none) : ¬ (i < 64 ∨ i = 64 ∨ i = 72 ∨ i = 80) := by
  rw [blockAt] at h
  split_ifs at h with hram hdevice
  omega

lemma block_entry {i a : Nat} (h : blockAt i = some a) (virt : Nat) :
  (a + blockAttrs i) &&& pteValid ≠ 0 ∧ (a + blockAttrs i) &&& 3 = 1 ∧
    ((a + blockAttrs i) &&& bitsFrom 21 64 ||| virt &&& 0x1FFFFF) = a + virt % 2 ^ 21 := by
  have haligned : a % 2 ^ 21 = 0 ∧ a < 2 ^ 64 := by
    have hi := blockAt_some h
    omega
  have hattrs : blockAttrs i < 2 ^ 21 ∧ blockAttrs i % 4 = 1 := by
    rw [blockAttrs]
    split_ifs <;> decide
  refine ⟨?_, ?_, ?_⟩
  · rw [pteValid, Nat.and_one_is_mod]
    omega
  · rw [and_three]
    omega
  rw [aligned_add_and_bitsFrom (by decide) haligned.1 hattrs.1 haligned.2,
    show 0x1FFFFF = 2 ^ 21 - 1 from rfl, Nat.and_two_pow_sub_one_eq_mod]
  exact or_of_aligned haligned.1 (Nat.mod_lt _ (by decide))

lemma table_entry {a : Nat} (haligned : a % 2 ^ 12 = 0) (hbound : a < 2 ^ 48) :
  (a ||| pteTable) &&& pteValid ≠ 0 ∧ (a ||| pteTable) &&& bitsFrom 12 64 = a := by
  have hor : a ||| pteTable = a + 3 := or_of_aligned haligned (by decide)
  rw [hor]
  refine ⟨?_, aligned_add_and_bitsFrom (by decide) haligned (by decide) (by omega)⟩
  rw [pteValid, Nat.and_one_is_mod]
  omega

lemma vmmGetPhys_vmmInit {k : KernelTables} (hne : k.pud ≠ k.pmd) (mem : TableMem) (va : Nat) :
  vmmGetPhys k (vmmInit k mem) va = if tableIndex 3 va = 0 ∧ tableIndex 2 va ≤ 1 then
      (blockAt (tableIndex 1 va)).elim 0 fun a => a + va % 2 ^ 21 else 0 := by
  obtain ⟨hpudValid, hpudAddr⟩ := table_entry k.pud_aligned k.pud_bounded
  obtain ⟨hpmdValid, hpmdAddr⟩ := table_entry k.pmd_aligned k.pmd_bounded
  have hzero : 0 &&& pteValid = 0 := rfl
  simp only [vmmGetPhys, vmmInit_pgd]
  by_cases hpath : tableIndex 3 va = 0 ∧ tableIndex 2 va ≤ 1
  · rw [if_pos hpath.1, if_neg hpudValid, hpudAddr, vmmInit_pud hne, if_pos hpath.2,
      if_neg hpmdValid, hpmdAddr, if_pos hpath]
    have hentry := vmmInit_pmd hne mem (tableIndex 1 va)
    cases hblock : blockAt (tableIndex 1 va) with
    | none =>
      have hempty : vmmInit k mem k.pmd (tableIndex 1 va) = 0 := by
        rw [hentry, hblock]
        rfl
      rw [hempty, if_pos hzero]
      rfl
    | some a =>
      obtain ⟨hvalid, hkind, haddr⟩ := block_entry hblock va
      have hfilled : vmmInit k mem k.pmd (tableIndex 1 va) = a + blockAttrs (tableIndex 1 va) := by
        rw [hentry, hblock]
        rfl
      rw [hfilled, if_neg hvalid, if_pos hkind, haddr]
      rfl
  rw [if_neg hpath]
  by_cases hroot : tableIndex 3 va = 0
  · rw [if_pos hroot, if_neg hpudValid, hpudAddr, vmmInit_pud hne,
      if_neg fun hgiga => hpath ⟨hroot, hgiga⟩, if_pos hzero]
  · rw [if_neg hroot, if_pos hzero]

/-- The regions that `vmm_init` is asked to map. -/
def Intended (va : Nat) : Prop :=
  (0x08000000 ≤ va ∧ va < 0x08200000) ∨ (0x09000000 ≤ va ∧ va < 0x09200000) ∨
    (0x0A000000 ≤ va ∧ va < 0x0A200000) ∨ (0x40000000 ≤ va ∧ va < 0x48000000)

instance (va : Nat) : Decidable (Intended va) := inferInstanceAs (Decidable (_ ∨ _ ∨ _ ∨ _))

/-- Bits 21 to 47 of the address select entries that `vmm_init` has filled. -/
def Selects (va : Nat) : Prop :=
  va / 2 ^ 39 % 512 = 0 ∧ va / 2 ^ 30 % 512 ≤ 1 ∧
    (va / 2 ^ 21 % 512 < 64 ∨ va / 2 ^ 21 % 512 = 64 ∨ va / 2 ^ 21 % 512 = 72 ∨
      va / 2 ^ 21 % 512 = 80)

/-- `vmm_get_phys` is the identity on the regions and zero elsewhere exactly for the addresses in
a region and for those that select no entry. -/
theorem identity_map_iff {k : KernelTables} (hne : k.pud ≠ k.pmd) (mem : TableMem) (va : Nat) :
  vmmGetPhys k (vmmInit k mem) va = (if Intended va then va else 0) ↔
    Intended va ∨ ¬ Selects va := by
  have hroot := tableIndex_eq 3 va
  have hgiga := tableIndex_eq 2 va
  have hblock := tableIndex_eq 1 va
  have hselects : Selects va ↔ (tableIndex 3 va = 0 ∧ tableIndex 2 va ≤ 1) ∧
      (tableIndex 1 va < 64 ∨ tableIndex 1 va = 64 ∨ tableIndex 1 va = 72 ∨
        tableIndex 1 va = 80) := by
    rw [hroot, hgiga, hblock, and_assoc]
    rfl
  rw [vmmGetPhys_vmmInit hne]
  by_cases hpath : Selects va
  · -- An entry is selected, and what it gives is the address itself in a region and
    -- some other address outside.
    obtain ⟨htop, hfilled⟩ := hselects.mp hpath
    cases hentry : blockAt (tableIndex 1 va) with
    | none => exact absurd hfilled (blockAt_none hentry)
    | some a =>
      have ha := blockAt_some hentry
      simp only [elim_some, hpath, not_true, or_false]
      split_ifs with hregion
      · refine iff_of_true ?_ hregion
        rw [Intended] at hregion
        omega
      refine iff_of_false ?_ hregion
      omega
  have hnone : ¬ Intended va := by
    intro hregion
    apply hpath
    rw [Intended] at hregion
    rw [Selects]
    omega
  refine iff_of_true ?_ (.inr hpath)
  split_ifs with htop
  · cases hentry : blockAt (tableIndex 1 va) with
    | none => rfl
    | some a =>
      have ha := blockAt_some hentry
      exact absurd (hselects.mpr ⟨htop, by omega⟩) hpath
  · rfl

theorem identity_map_uart :
  vmmGetPhys sampleTables (vmmInit sampleTables fun _ _ => 0) 0x09000018 = 0x09000018 :=
  (identity_map_iff (by decide) _ 0x09000018).mpr (.inl (by decide))

/-- Address zero is mapped to the start of RAM, the end of RAM to a device, and an address
of 49 bits like its lower 48. -/
theorem unmapped_addresses_translated :
  vmmGetPhys sampleTables (vmmInit sampleTables fun _ _ => 0) 0 = 0x40000000 ∧
    vmmGetPhys sampleTables (vmmInit sampleTables fun _ _ => 0) 0x48000000 = 0x08000000 ∧
    vmmGetPhys sampleTables (vmmInit sampleTables fun _ _ => 0) (2 ^ 48 + 0x09000000) =
      0x09000000 := by
  have hne : sampleTables.pud ≠ sampleTables.pmd := by decide
  simp only [vmmGetPhys_vmmInit hne]
  decide

end Aeos.Mem
