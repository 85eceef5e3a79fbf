/-
# The pages of an address space

With a sound page allocator, `as_create` and `as_map_block` either get the frames
they need or fail for want of free frames, and `as_destroy` gives the table
frames back.
-/

import Aeos.Mem.Frames
import Aeos.Mem.Vmm

namespace Aeos.Mem

open Lib List Finset Function

structure Owns (mm : Mm Pmm) (as : Nat) (frames : List Nat) : Prop where
  nonzero : as ≠ 0
  self : (mm.spaces as).self = as
  region : (mm.spaces as).userRegion = 0
  tables : (mm.spaces as).tables = frames.map frameToPhys
  nodup : frames.Nodup

variable {mm mm₀ : Mm Pmm} {as : Nat} {frames : List Nat} {F : Finset Nat} {mm' : Mm Pmm}

lemma Owns.congr (h : Owns mm as frames) (heq : mm'.spaces as = mm.spaces as) :
  Owns mm' as frames :=
  ⟨h.nonzero, by rw [heq]; exact h.self, by rw [heq]; exact h.region,
    by rw [heq]; exact h.tables, h.nodup⟩

lemma Owns.mem_tables {f : Nat} (h : Owns mm as frames) (hlt : ∀ g ∈ frames, g < totalFrames)
  (hf : f < totalFrames) : frameToPhys f ∈ (mm.spaces as).tables ↔ f ∈ frames := by
  rw [h.tables, List.mem_map]
  constructor
  · rintro ⟨g, hg, heq⟩
    rwa [← frameToPhys_inj (hlt g hg) hf heq]
  · exact fun hmem => ⟨f, hmem, rfl⟩

lemma asDestroy_eq (hne : as ≠ 0) (hself : (mm.spaces as).self = as)
  (hregion : (mm.spaces as).userRegion = 0) :
  (asDestroy mm as).pmm = (mm.spaces as).tables.foldl pmmFreePage mm.pmm ∧
    (asDestroy mm as).mem = mm.mem := by
  have hchecks : ¬ (as = 0 ∨ (mm.spaces as).self ≠ as) := by simp [hne, hself]
  unfold asDestroy
  rw [if_neg hchecks]
  simp only [hregion, ne_eq, not_true_eq_false, if_false, Mm.setSpace, asSwitch]
  split_ifs <;> exact ⟨rfl, rfl⟩

lemma Owns.destroy {p₀ : Pmm} (hown : Owns mm as frames) (hholds : Holds p₀ mm.pmm F)
  (hsub : frames.toFinset ⊆ F) : Holds p₀ (asDestroy mm as).pmm (F \ frames.toFinset) := by
  rw [(asDestroy_eq hown.nonzero hown.self hown.region).1, hown.tables]
  exact Holds.freeTables hown.nodup hholds hsub

/-! ## Building an address space -/

structure Took (mm mm' : Mm Pmm) (as : Nat) (frames : List Nat) (F : Finset Nat) : Prop where
  owns : Owns mm' as frames
  sub : frames.toFinset ⊆ F
  holds : Holds mm.pmm mm'.pmm F
  mem : ∀ x, (∀ f ∈ F, x ≠ frameToPhys f) → mm'.mem x = mm.mem x

def UsedKept (mm mm' : Mm Pmm) : Prop :=
  ∀ x, (∀ f < totalFrames, mm.pmm.bitmap f = false → x ≠ frameToPhys f) → mm'.mem x = mm.mem x

lemma Took.usedKept (htook : Took mm mm' as frames F) : UsedKept mm mm' := by
  intro x hx
  refine htook.mem x fun f hf => ?_
  obtain ⟨hlt, hfree⟩ := htook.holds.free f hf
  exact hx f hlt hfree

lemma asCreate_wf (k : KernelTables) (hpos : 0 < mm.heap.ptr) (hptr : mm.heap.ptr ≤ heapEnd)
  (hwf : mm.pmm.Wf) : (¬ mm.heap.ptr + addrSpaceSize ≤ heapEnd ∧ asCreate k mm = (0, mm)) ∨
    (mm.pmm.freeCount = 0 ∧ ∃ mm', asCreate k mm = (0, mm') ∧ mm'.pmm = mm.pmm ∧ mm'.mem = mm.mem) ∨
    (mm.heap.ptr + addrSpaceSize ≤ heapEnd ∧ ∃ f mm',
      asCreate k mm = (mm.heap.ptr, mm') ∧ Took mm mm' mm.heap.ptr [f] {f} ∧
      (∀ g < f, mm.pmm.bitmap g = true) ∧ (mm'.spaces mm.heap.ptr).pgd = frameToPhys f ∧
      (k.pgd ≠ frameToPhys f → mm'.mem (frameToPhys f) = mm.mem k.pgd)) := by
  rcases asCreate_cases k hpos hptr with ⟨hfull, heq⟩ | ⟨hfit, ⟨hpage, heq⟩ | ⟨a, ha, hne, heq⟩⟩
  · exact .inl ⟨not_le.mpr hfull, heq⟩
  · rcases pmmAllocPage_wf hwf with ⟨hzero, halloc⟩ | ⟨_, f, _, _, _, halloc⟩
    · have halloc' : PageSource.allocPage mm.pmm = (0, mm.pmm) := halloc
      rw [halloc'] at heq
      exact .inr (.inl ⟨hzero, _, heq, rfl, rfl⟩)
    have hpage' : (pmmAllocPage mm.pmm).1 = 0 := hpage
    rw [halloc] at hpage'
    exact absurd hpage' (frameToPhys_ne_zero f)
  rcases pmmAllocPage_wf hwf with ⟨_, halloc⟩ | ⟨hcount, f, hf, hfree, hlow, halloc⟩
  · have hpage : (PageSource.allocPage mm.pmm).1 = 0 := congrArg Prod.fst halloc
    exact absurd (ha.symm.trans hpage) hne
  have halloc' : PageSource.allocPage mm.pmm = (frameToPhys f, mm.pmm.take f 1) := halloc
  obtain rfl : frameToPhys f = a := by rw [← ha, halloc']
  rw [halloc'] at heq
  refine .inr (.inr ⟨hfit, f, _, heq, ⟨⟨hpos.ne', ?_, ?_, ?_, nodup_singleton f⟩,
    subset_rfl, (Holds.refl mm.pmm).takePage hf hfree hcount, ?_⟩, hlow, ?_, ?_⟩)
  · dsimp only
    rw [update_self]
  · dsimp only
    rw [update_self]
  · dsimp only
    rw [update_self]
    rfl
  · intro x hx
    exact update_of_ne (hx f (Finset.mem_singleton_self f)) _ _
  · dsimp only
    rw [update_self]
  intro hother
  dsimp only
  rw [update_self, update_of_ne hother]

lemma asAllocTable_wf (hwf : mm.pmm.Wf) (hlen : (mm.spaces as).tables.length < asMaxTables) :
  (mm.pmm.freeCount = 0 ∧ asAllocTable mm as = (0, mm)) ∨
    (mm.pmm.freeCount ≠ 0 ∧ ∃ f < totalFrames, mm.pmm.bitmap f = false ∧ asAllocTable mm as =
        (frameToPhys f, { mm with
            pmm := mm.pmm.take f 1
            mem := update mm.mem (frameToPhys f) fun _ => 0
            spaces := update mm.spaces as
              { mm.spaces as with tables := (mm.spaces as).tables ++ [frameToPhys f] } })) := by
  have hroom := not_le.mpr hlen
  unfold asAllocTable
  rcases pmmAllocPage_wf hwf with ⟨hzero, heq⟩ | ⟨hne, f, hf, hfree, _, heq⟩
  · have halloc : PageSource.allocPage mm.pmm = (0, mm.pmm) := heq
    exact .inl ⟨hzero, by simp [halloc]⟩
  have halloc : PageSource.allocPage mm.pmm = (frameToPhys f, mm.pmm.take f 1) := heq
  exact .inr ⟨hne, f, hf, hfree, by simp [halloc, hroom, frameToPhys_ne_zero]⟩

lemma Took.nextTable {t i : Nat} (htook : Took mm₀ mm as frames F) (hwf : mm₀.pmm.Wf)
  (hlen : frames.length < asMaxTables) (ht : t ∈ frames) (hempty : mm.mem (frameToPhys t) i = 0) :
  (mm.pmm.freeCount = 0 ∧ nextTable mm as (frameToPhys t) i = (none, mm)) ∨
    ∃ f mm', nextTable mm as (frameToPhys t) i = (some (frameToPhys f), mm') ∧
      mm'.pmm.freeCount + 1 = mm.pmm.freeCount ∧ f ∉ F ∧
      Took mm₀ mm' as (frames ++ [f]) (insert f F) ∧ mm'.mem (frameToPhys f) = fun _ => 0 := by
  have hown := htook.owns
  have hlen' : (mm.spaces as).tables.length < asMaxTables := by
    rwa [hown.tables, length_map]
  have hkind : mm.mem (frameToPhys t) i &&& pteTable = 0 := by
    rw [hempty]
    exact Nat.zero_and _
  rcases asAllocTable_wf (htook.holds.wf hwf) hlen' with ⟨hzero, heq⟩ | ⟨hne, f, hf, hfree, heq⟩
  · exact .inl ⟨hzero, by simp [Mem.nextTable, hkind, heq]⟩
  have hfF : f ∉ F := htook.holds.notMem_of_free hfree
  have htF : t ∈ F := htook.sub (mem_toFinset.mpr ht)
  have htf : frameToPhys f ≠ frameToPhys t := by
    intro heq
    have hinj := congrArg physToFrame heq
    rw [physToFrame_frameToPhys hf, physToFrame_frameToPhys (htook.holds.free t htF).1] at hinj
    exact hfF (hinj ▸ htF)
  refine .inr ⟨f,
    { mm with
      pmm := mm.pmm.take f 1
      mem := setEntry (update mm.mem (frameToPhys f) fun _ => 0) (frameToPhys t) i
        (frameToPhys f &&& bitsFrom 12 64 ||| pteTable)
      spaces := update mm.spaces as
        { mm.spaces as with tables := (mm.spaces as).tables ++ [frameToPhys f] } },
    ?_, ?_, hfF, ⟨⟨hown.nonzero, ?_, ?_, ?_, ?_⟩, ?_, ?_, ?_⟩, ?_⟩
  · simp only [Mem.nextTable, hkind, heq, frameToPhys_ne_zero, if_true, if_false]
  · simp only [Pmm.take]
    omega
  · simpa using hown.self
  · simpa using hown.region
  · simp [hown.tables]
  · refine nodup_append.mpr ⟨hown.nodup, nodup_singleton f, ?_⟩
    intro x hx y hy
    rw [List.mem_singleton.mp hy]
    rintro rfl
    exact hfF (htook.sub (mem_toFinset.mpr hx))
  · rw [toFinset_append, toFinset_cons, toFinset_nil, insert_empty_eq,
      union_comm, ← Finset.insert_eq]
    exact insert_subset_insert f htook.sub
  · exact htook.holds.takePage hf hfree hne
  · intro x hx
    dsimp only
    rw [setEntry_of_ne _ _ _ (hx t (Finset.mem_insert_of_mem htF)),
      update_of_ne (hx f (Finset.mem_insert_self f F))]
    exact htook.mem x fun g hg => hx g (Finset.mem_insert_of_mem hg)
  dsimp only
  rw [setEntry_of_ne _ _ _ htf, update_self]

lemma Took.store {t : Nat} (htook : Took mm₀ mm as frames F) (ht : t ∈ frames) (i value : Nat) :
  Took mm₀ { mm with mem := setEntry mm.mem (frameToPhys t) i value } as frames F where
  owns := ⟨htook.owns.nonzero, htook.owns.self, htook.owns.region, htook.owns.tables,
    htook.owns.nodup⟩
  sub := htook.sub
  holds := htook.holds
  mem x hx := by
    dsimp only
    rw [setEntry_of_ne _ _ _ (hx t (htook.sub (mem_toFinset.mpr ht)))]
    exact htook.mem x hx

lemma Took.mapBlock {f₀ pa : Nat} (htook : Took mm₀ mm as [f₀] F) (hwf : mm₀.pmm.Wf)
  (hpgd : (mm.spaces as).pgd = frameToPhys f₀)
  (hempty : mm.mem (frameToPhys f₀) (tableIndex 3 userVaBase) = 0)
  (haligned : pa &&& 0x1FFFFF = 0) :
  ∃ L code mm', asMapBlock mm as userVaBase pa userBlockRwx = (code, mm') ∧
    Took mm₀ mm' as (f₀ :: L) (L.toFinset ∪ F) ∧ (∀ f ∈ L, f ∉ F) ∧
    (code = 0 ↔ 2 ≤ mm.pmm.freeCount) := by
  have hargs : ¬ (as = 0 ∨ (mm.spaces as).self ≠ as ∨ userVaBase &&& 0x1FFFFF ≠ 0 ∨
      pa &&& 0x1FFFFF ≠ 0) := by
    have hva : userVaBase &&& 0x1FFFFF = 0 := by decide
    simp [htook.owns.nonzero, htook.owns.self, hva, haligned]
  have hfew : ¬ asMaxTables - 2 ≤ (mm.spaces as).tables.length := by
    rw [htook.owns.tables]
    simp [asMaxTables]
  unfold asMapBlock
  rw [if_neg hargs, if_neg hfew, hpgd]
  rcases htook.nextTable hwf (by simp [asMaxTables]) (List.mem_singleton_self f₀) hempty with
    ⟨hzero, hnext⟩ | ⟨f₂, mm₂, hnext, hcount, hf₂, htook₂, hrow⟩
  · -- No page for the PUD.
    refine ⟨[], -1, mm, by rw [hnext], by simpa using htook, by simp, ?_⟩
    simp [hzero]
  rw [hnext]
  dsimp only
  have hsecond := htook₂.nextTable (i := tableIndex 2 userVaBase) hwf (by simp [asMaxTables])
    (show f₂ ∈ [f₀] ++ [f₂] by simp) (by rw [hrow])
  rcases hsecond with ⟨hzero, hnext₂⟩ | ⟨f₃, mm₃, hnext₂, hcount₂, hf₃, htook₃, _⟩
  · -- No page for the PMD: the PUD stays.
    refine ⟨[f₂], -1, mm₂, by rw [hnext₂], by simpa using htook₂, by simpa using hf₂, ?_⟩
    omega
  rw [hnext₂]
  refine ⟨[f₂, f₃], 0, _, rfl, ?_, ?_, by simp; omega⟩
  · have hset : insert f₃ (insert f₂ F) = [f₂, f₃].toFinset ∪ F := by
      ext x
      simp only [toFinset_cons, toFinset_nil, insert_empty_eq, mem_insert,
        mem_union, Finset.mem_singleton]
      tauto
    rw [← hset]
    exact htook₃.store (by simp) _ _
  intro f hf
  simp only [List.mem_cons, not_mem_nil, or_false] at hf
  rcases hf with rfl | rfl
  · exact hf₂
  · exact fun hmem => hf₃ (Finset.mem_insert_of_mem hmem)

end Aeos.Mem
