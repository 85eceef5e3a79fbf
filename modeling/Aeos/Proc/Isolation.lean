/-
# Processes do not share physical memory

Each process has a 4 MB chunk of its own, and its tables map the user window to a 2 MB
block inside that chunk.
-/

import Aeos.Proc.Reclaim

namespace Aeos.Proc

open Lib Mem Sched Function

/-! ## The block inside a chunk -/

variable {chunk f g a : Nat}

lemma regionOf_eq (hchunk : chunk < 2 ^ 48) :
  regionOf chunk = (chunk + 0x1FFFFF) / 2 ^ 21 * 2 ^ 21 := by
  have hfit : chunk + 0x1FFFFF < 2 ^ 64 := by omega
  have hword : (chunk + 0x1FFFFF) % wordSize = chunk + 0x1FFFFF := Nat.mod_eq_of_lt hfit
  rw [regionOf, hword, and_bitsFrom (by decide), Nat.mod_eq_of_lt hfit]

lemma frameToPhys_lt (hf : f ≤ totalFrames) : frameToPhys f < 2 ^ 48 := by
  simp only [frameToPhys, pageSize, ramStart, totalFrames, ramSize] at hf ⊢
  omega

lemma mem_chunkFrames : f ∈ chunkFrames g ↔ g ≤ f ∧ f < g + 1024 :=
  Finset.mem_Ico

section
variable (hg : g + 1024 ≤ totalFrames)
include hg

end

variable {k : KernelTables}

lemma fillSpace_maps {mm mm' : Mm Pmm} {as : Nat} {t : Tree}
  (h : Represents k mm.mem (mm.spaces as) t)
  (hown : ∀ a ∈ (mm.spaces as).tables, ¬ PageSource.Available mm.pmm a)
  (hfill : fillSpace mm as = (some chunk, mm')) : ∃ t', Represents k mm'.mem (mm'.spaces as) t' ∧
    t' (blockPath userVaBase) = some (regionOf chunk) := by
  rcases pmmAllocPages_cases mm.pmm 1024 with ⟨heq, -⟩ | ⟨g, hg, -, -, -, -, heq⟩
  · simp [fillSpace, heq] at hfill
  have hbound : regionOf (frameToPhys g) < 2 ^ 48 := by
    rw [regionOf_eq (frameToPhys_lt (by omega))]
    simp only [frameToPhys, pageSize, ramStart, totalFrames, ramSize] at hg ⊢
    omega
  -- A page in use stays in use when the chunk is taken.
  have hown' : ∀ a ∈ (mm.spaces as).tables,
      ¬ PageSource.Available (mm.pmm.take g 1024) a := by
    rintro a ha ⟨f, hf, rfl, hfree⟩
    apply hown _ ha
    refine ⟨f, hf, rfl, ?_⟩
    rw [Pmm.take_bitmap] at hfree
    split_ifs at hfree
    exact hfree
  rcases hcall : asMapBlock { mm with pmm := mm.pmm.take g 1024 } as userVaBase
      (regionOf (frameToPhys g)) userBlockRwx with ⟨code, mapped⟩
  obtain ⟨-, t', hrep, -, hblock⟩ := asMapBlock_spec
    (s := { mm with pmm := mm.pmm.take g 1024 }) h hown' (by decide) hbound hcall
  by_cases hcode : code = 0
  · simp [fillSpace, heq, frameToPhys_ne_zero, hcall, hcode] at hfill
    obtain ⟨rfl, rfl⟩ := hfill
    exact ⟨t', hrep, by rw [hblock, if_pos hcode]⟩
  · simp [fillSpace, heq, frameToPhys_ne_zero, hcall, hcode] at hfill

lemma buildSpace_maps {mm mm' : Mm Pmm} {as : Nat} (hpos : 0 < mm.heap.ptr)
  (hptr : mm.heap.ptr ≤ heapEnd) (hwf : mm.pmm.Wf)
  (hrow : ∀ i, mm.mem k.pgd i = if i = 0 then k.pud ||| pteTable else 0)
  (hused : ∀ f < totalFrames, mm.pmm.bitmap f = false → k.pgd ≠ frameToPhys f)
  (hbuild : buildSpace k mm = (some (as, chunk), mm')) :
  ∃ t, Represents k mm'.mem (mm'.spaces as) t ∧
    t (blockPath userVaBase) = some (regionOf chunk) := by
  rcases asCreate_wf k hpos hptr hwf with
    ⟨-, heq⟩ | ⟨-, mm₁, heq, -, -⟩ | ⟨-, f, made, heq, htook, -, hpgd, hcopy⟩
  · simp [buildSpace, heq] at hbuild
  · simp [buildSpace, heq] at hbuild
  obtain ⟨hf, hfree⟩ := htook.holds.free f (Finset.mem_singleton_self f)
  have havail : PageSource.Available mm.pmm (frameToPhys f) := ⟨f, hf, rfl, hfree⟩
  have htables : (made.spaces mm.heap.ptr).tables = [frameToPhys f] := htook.owns.tables
  have hfresh : Represents k made.mem (made.spaces mm.heap.ptr) (freshTree k (frameToPhys f)) := by
    apply represents_freshTree
    · intro i
      rw [hcopy (hused f hf hfree), hrow i]
    · exact hpgd
    · rw [htables]
      exact List.mem_singleton_self _
    · exact PageSource.aligned havail
    · exact PageSource.bounded havail
  have hown : ∀ a ∈ (made.spaces mm.heap.ptr).tables, ¬ PageSource.Available made.pmm a := by
    intro a ha
    rw [htables, List.mem_singleton] at ha
    rintro ⟨f', hf', heq', hfree'⟩
    have hsame : f = f' := frameToPhys_inj hf hf' (ha.symm.trans heq')
    rw [← hsame, htook.holds.used (Finset.mem_singleton_self f)] at hfree'
    cases hfree'
  rcases hfill : fillSpace made mm.heap.ptr with ⟨filled, mm₂⟩
  cases filled with
  | none => simp [buildSpace, heq, hpos.ne', hfill] at hbuild
  | some chunk' =>
    simp [buildSpace, heq, hpos.ne', hfill] at hbuild
    obtain ⟨⟨rfl, rfl⟩, rfl⟩ := hbuild
    exact fillSpace_maps hfresh hown hfill

/-! ## Chunks -/

/-- The processes that exist have chunks `g`, mapped at the user window, apart from each other and
from every table. -/
structure ChunkInv (c : Statics) (p₀ : Pmm) (k : Kernel) (g : Nat → Nat) : Prop where
  mem : MemInv c p₀ k
  row : ∀ i, k.mm.mem c.pgd i = if i = 0 then c.pud ||| pteTable else 0
  kernel : ∀ f < totalFrames, p₀.bitmap f = false → ¬ c.toKernelTables.Has (frameToPhys f)
  mapped : ∀ p, (k.procs p).state ≠ .none → ∃ t,
    Represents c.toKernelTables k.mm.mem (k.mm.spaces (k.procs p).as) t ∧
      t (blockPath userVaBase) = some (regionOf (frameToPhys (g p)))
  range : ∀ p, (k.procs p).state ≠ .none → g p + 1024 ≤ totalFrames
  used : ∀ p, (k.procs p).state ≠ .none → ∀ f ∈ chunkFrames (g p),
    k.mm.pmm.bitmap f = true ∧ p₀.bitmap f = false
  apart : ∀ p q, (k.procs p).state ≠ .none → (k.procs q).state ≠ .none → p ≠ q →
    Disjoint (chunkFrames (g p)) (chunkFrames (g q))
  tables : ∀ p q, (k.procs p).state ≠ .none → (k.procs q).state ≠ .none →
    ∀ f ∈ chunkFrames (g p), frameToPhys f ∉ (k.mm.spaces (k.procs q).as).tables

section
variable {c : Statics} {p₀ : Pmm} {k k' : Kernel} {g : Nat → Nat}

lemma ChunkInv.lt_of_mem (h : ChunkInv c p₀ k g) {p f : Nat}
  (hp : (k.procs p).state ≠ .none) (hf : f ∈ chunkFrames (g p)) : f < totalFrames := by
  have hrange := h.range p hp
  rw [mem_chunkFrames] at hf
  omega

lemma MemInv.tables_kept (h : MemInv c p₀ k) (hkept : UsedKept k.mm k'.mm) {p : Nat}
  (hp : (k.procs p).state ≠ .none) :
  ∀ a ∈ (k.mm.spaces (k.procs p).as).tables, k'.mm.mem a = k.mm.mem a := by
  intro a ha
  apply hkept
  rintro f hf hfree rfl
  exact h.notMem_tables hp hf hfree ha

variable (h : ChunkInv c p₀ k g)
include h

lemma ChunkInv.of_kept (hmem : MemInv c p₀ k') (hkept : UsedKept k.mm k'.mm)
    (hprocs : ProcsKept k k') (hbits : ∀ p, (k'.procs p).state ≠ .none → ∀ f ∈ chunkFrames (g p),
    k.mm.pmm.bitmap f = true → k'.mm.pmm.bitmap f = true) : ChunkInv c p₀ k' g where
  mem := hmem
  row i := by
    rw [hkept c.pgd h.mem.safe.used]
    exact h.row i
  kernel := h.kernel
  mapped p hp := by
    obtain ⟨hp₀, has, hspace⟩ := hprocs p hp
    obtain ⟨t, hrep, hblock⟩ := h.mapped p hp₀
    rw [has, hspace]
    exact ⟨t, hrep.frame (h.mem.tables_kept hkept hp₀), hblock⟩
  range p hp := h.range p (hprocs p hp).1
  used p hp f hf := by
    obtain ⟨hused, hboot⟩ := h.used p (hprocs p hp).1 f hf
    exact ⟨hbits p hp f hf hused, hboot⟩
  apart p q hp hq := h.apart p q (hprocs p hp).1 (hprocs q hq).1
  tables p q hp hq f hf := by
    obtain ⟨hq₀, has, hspace⟩ := hprocs q hq
    rw [has, hspace]
    exact h.tables p q (hprocs p hp).1 hq₀ f hf

lemma ChunkInv.notMem_chunk {p f : Nat} (hp : (k.procs p).state ≠ .none)
    (hfree : k.mm.pmm.bitmap f = false) : f ∉ chunkFrames (g p) := by
  intro hmem
  rw [(h.used p hp f hmem).1] at hfree
  cases hfree

lemma ChunkInv.process (hmem : MemInv c p₀ k') {pcb as g₀ : Nat} {frames : List Nat} {t : Tree}
    (hnew : Creation k k' pcb as g₀ frames)
    (hrep : Represents c.toKernelTables k'.mm.mem (k'.mm.spaces as) t)
    (hblock : t (blockPath userVaBase) = some (regionOf (frameToPhys g₀))) :
  ChunkInv c p₀ k' (update g pcb g₀) := by
  have hkept := hnew.gain.took.usedKept
  refine ⟨hmem, fun i => ?_, h.kernel, fun p hp => ?_, fun p hp => ?_, fun p hp f hf => ?_,
    fun p q hp hq hne => ?_, fun p q hp hq f hf => ?_⟩
  · rw [hkept c.pgd h.mem.safe.used]
    exact h.row i
  · by_cases hpp : p = pcb
    · subst hpp
      rw [hnew.entry, update_self]
      exact ⟨t, hrep, hblock⟩
    obtain ⟨hp₀, heq, hspace⟩ := hnew.old h.mem hpp hp
    obtain ⟨t', hrep', hblock'⟩ := h.mapped p hp₀
    rw [heq, hspace, update_of_ne hpp]
    exact ⟨t', hrep'.frame (h.mem.tables_kept hkept hp₀), hblock'⟩
  · by_cases hpp : p = pcb
    · have hlast : g₀ + 1023 ∈ chunkFrames g₀ := mem_chunkFrames.mpr (by omega)
      have hlt := (hnew.chunk_free hlast).1
      rw [hpp, update_self]
      omega
    rw [update_of_ne hpp]
    exact h.range p (hnew.old h.mem hpp hp).1
  · by_cases hpp : p = pcb
    · rw [hpp, update_self] at hf
      exact ⟨hnew.chunk_used hf, h.mem.free_at_boot (hnew.chunk_free hf).2⟩
    rw [update_of_ne hpp] at hf
    obtain ⟨hused, hboot⟩ := h.used p (hnew.old h.mem hpp hp).1 f hf
    exact ⟨hnew.still_used hused, hboot⟩
  · have hcross : ∀ r, r ≠ pcb → (k'.procs r).state ≠ .none →
        Disjoint (chunkFrames g₀) (chunkFrames (g r)) := by
      intro r hr hlive
      rw [Finset.disjoint_left]
      intro f hf
      exact h.notMem_chunk (hnew.old h.mem hr hlive).1 (hnew.chunk_free hf).2
    by_cases hpp : p = pcb
    · have hqp : q ≠ pcb := fun heq => hne (hpp.trans heq.symm)
      rw [hpp, update_self, update_of_ne hqp]
      exact hcross q hqp hq
    rw [update_of_ne hpp]
    by_cases hqp : q = pcb
    · rw [hqp, update_self]
      exact (hcross p hpp hp).symm
    rw [update_of_ne hqp]
    exact h.apart p q (hnew.old h.mem hpp hp).1 (hnew.old h.mem hqp hq).1 hne
  by_cases hpp : p = pcb
  · rw [hpp, update_self] at hf
    exact hnew.chunk_notMem_tables h.mem hf hq
  rw [update_of_ne hpp] at hf
  have hp₀ := (hnew.old h.mem hpp hp).1
  by_cases hqp : q = pcb
  · rw [hqp, hnew.entry, hnew.mem_tables (h.lt_of_mem hp₀ hf)]
    intro hin
    exact h.notMem_chunk hp₀ (hnew.table_free hin).2 hf
  obtain ⟨hq₀, heq, hspace⟩ := hnew.old h.mem hqp hq
  rw [heq, hspace]
  exact h.tables p q hp₀ hq₀ f hf

/-- Step lemma: every move keeps the chunks of the processes that go on existing. -/
lemma ChunkInv.move {o : Outcome} (hmove : Move c k k' o) : ∃ g', ChunkInv c p₀ k' g' := by
  have hmem := (h.mem.move hmove).1
  cases hmove.proc with
  | kept _ hprocs hmm =>
    refine ⟨g, h.of_kept hmem (fun x _ => by rw [hmm.mem]) (procsKept_of_entries hprocs hmm) ?_⟩
    intro p _ f _ hused
    rwa [hmm.pmm]
  | failed hprocs hmm =>
    obtain ⟨hpmm, hkept⟩ := h.mem.failed hmm
    have hconstructs := h.mem.space.constructs_of_failed hmm
    refine ⟨g, h.of_kept hmem hkept (fun p hp => ?_) fun p _ f _ hused => by rwa [hpmm]⟩
    rw [hprocs] at hp ⊢
    exact ⟨hp, rfl, hconstructs.other _ (h.mem.space.made p hp).2.1.ne⟩
  | process slot pcb as chunk hbuild hpcb hprocs =>
    obtain ⟨g₀, frames, rfl, hnew⟩ := h.mem.creation hbuild hpcb.2 hprocs
    obtain ⟨t, hrep, hblock⟩ := buildSpace_maps h.mem.space.heap_pos h.mem.space.heap_end
      h.mem.wf h.row h.mem.safe.used hbuild
    exact ⟨_, h.process hmem hnew hrep hblock⟩
  | reaped pid i hexec _ hzombie hprocs hpcb hmm =>
    have hlive : (k.procs i).state ≠ .none := by rw [hzombie]; simp
    obtain ⟨frames, hown, hframes⟩ := h.mem.tables i hlive
    obtain ⟨hpmm, htabs⟩ := asDestroy_eq hown.nonzero hown.self hown.region
    have hother := (outside_asDestroy (h.mem.space.active_ne_zombie hexec hzombie)).other
    rw [← hmm] at hpmm htabs hother
    have hold : ProcsKept k k' := by
      intro p hp
      obtain ⟨hpi, hp₀, heq⟩ := used_of_cleared hprocs hpcb hp
      rw [heq]
      exact ⟨hp₀, rfl, hother _ fun has => hpi (h.mem.space.distinct p i hp₀ hlive has)⟩
    refine ⟨g, h.of_kept hmem (fun x _ => by rw [htabs]) hold fun p hp f hf hused => ?_⟩
    -- The frames freed are tables, and no chunk holds a table.
    have hp₀ := (hold p hp).1
    rw [hpmm, hown.tables, foldl_freePage_bitmap fun x hx => (hframes x hx).1]
    refine ⟨hused, fun hin => h.tables p i hp₀ hlive f hf ?_⟩
    exact (hown.mem_tables (fun x hx => (hframes x hx).1) (h.lt_of_mem hp₀ hf)).mpr hin

end

end Aeos.Proc
