/-
# The memory of a process

What `proc_spawn_image` takes from the page allocator and what comes back. A process
holds the table pages of its address space and a 4 MB chunk.
-/

import Aeos.Mem.Mapping
import Aeos.Proc.World

namespace Aeos.Proc

open Lib Mem Sched List Finset

def chunkFrames (g : Nat) : Finset Nat := Finset.Ico g (g + 1024)

variable {mm : Mm Pmm} {as : Nat} {c : Statics} {k : Kernel} {frames : List Nat}

lemma releaseSpace_pmm {p₀ : Pmm} {g : Nat} (hown : Owns mm as frames)
  (hholds : Holds p₀ mm.pmm (frames.toFinset ∪ chunkFrames g))
  (hapart : Disjoint frames.toFinset (chunkFrames g)) :
  (releaseSpace mm as (frameToPhys g)).pmm = p₀ := by
  have hchunk : Holds p₀ (pmmFreePages mm.pmm (frameToPhys g) 1024)
      ((frames.toFinset ∪ chunkFrames g) \ chunkFrames g) :=
    hholds.freePages subset_union_right
  have hleft : (frames.toFinset ∪ chunkFrames g) \ chunkFrames g = frames.toFinset := by
    rw [union_sdiff_right]
    exact sdiff_eq_self_of_disjoint hapart
  rw [hleft] at hchunk
  have hown' : Owns { mm with pmm := pmmFreePages mm.pmm (frameToPhys g) 1024 } as frames :=
    ⟨hown.nonzero, hown.self, hown.region, hown.tables, hown.nodup⟩
  have hdone := hown'.destroy hchunk subset_rfl
  rw [Finset.sdiff_self] at hdone
  exact hdone.eq_of_empty

/-- The page allocator can serve a process: a chunk with a free frame below it for the PGD, and
two more pages. -/
def Room (p : Pmm) : Prop :=
  1027 ≤ p.freeCount ∧
    ∃ h g, h < g ∧ g + 1024 ≤ totalFrames ∧ p.bitmap h = false ∧ runFree p.bitmap g 1024 = true

lemma releaseSpace_mem (hown : Owns mm as frames) (chunk : Nat) :
  (releaseSpace mm as chunk).mem = mm.mem := by
  have hself : ({ mm with pmm := pmmFreePages mm.pmm chunk 1024 } : Mm Pmm).spaces = mm.spaces :=
    rfl
  exact (asDestroy_eq hown.nonzero (by rw [hself]; exact hown.self)
    (by rw [hself]; exact hown.region)).2

variable {f₀ : Nat}

lemma pmmAllocPages_after {p₀ p : Pmm} (hholds : Holds p₀ p {f₀})
  (hlow : ∀ g < f₀, p₀.bitmap g = true) : (¬ Room p₀ ∧ pmmAllocPages p 1024 = (0, p)) ∨
    ∃ g, f₀ < g ∧ pmmAllocPages p 1024 = (frameToPhys g, p.take g 1024) ∧
      g + 1024 ≤ totalFrames ∧ (∀ i < 1024, p.bitmap (g + i) = false) ∧ 1024 ≤ p.freeCount := by
  have hcount : p.freeCount + 1 = p₀.freeCount := by simpa using hholds.freeCount
  rcases pmmAllocPages_cases p 1024 with ⟨heq, hfail⟩ | ⟨g, hg, hrun, _, _, hle, heq⟩
  · refine .inl ⟨?_, heq⟩
    rintro ⟨hmany, h, g, hhg, hend, hh, hrun⟩
    rcases hfail with hfail | hfail | hfail
    · cases hfail
    · omega
    -- The run of the room lies above the frame taken, so it is still free.
    have hle : f₀ ≤ h := by
      by_contra hlt
      rw [hlow h (not_le.mp hlt)] at hh
      cases hh
    have hno := hfail g (by omega)
    have hyes : runFree p.bitmap g 1024 = true := by
      rw [runFree_iff] at hrun ⊢
      intro i hi
      have hfree := hrun i hi
      have hiff := (hholds.bitmap (g + i)).not
      rw [Finset.mem_singleton, hfree] at hiff
      have hne : g + i ≠ f₀ := by omega
      simpa [hne] using hiff
    rw [hyes] at hno
    cases hno
  have hfree := runFree_iff.mp hrun
  refine .inr ⟨g, ?_, heq, ?_, hfree, hle⟩
  · by_contra hnot
    have hgf := hfree 0 (by decide)
    have hused : p.bitmap g = true := by
      refine (hholds.bitmap g).mpr ?_
      rcases Nat.lt_or_ge g f₀ with hlt | hge
      · exact .inl (hlow g hlt)
      · exact .inr (Finset.mem_singleton.mpr (by omega))
    rw [Nat.add_zero, hused] at hgf
    cases hgf
  have htotal : 1024 ≤ totalFrames := by decide
  omega

lemma regionOf_aligned (chunk : Nat) : regionOf chunk &&& 0x1FFFFF = 0 := by
  rw [regionOf, Nat.and_assoc]
  have hmask : bitsFrom 21 64 &&& 0x1FFFFF = 0 := by decide
  rw [hmask, Nat.and_zero]

lemma fillSpace_spec {mm₀ : Mm Pmm} (htook : Took mm₀ mm as [f₀] {f₀})
  (hwf : mm₀.pmm.Wf) (hlow : ∀ g < f₀, mm₀.pmm.bitmap g = true)
  (hpgd : (mm.spaces as).pgd = frameToPhys f₀)
  (hempty : mm.mem (frameToPhys f₀) (tableIndex 3 userVaBase) = 0) :
  (¬ Room mm₀.pmm ∧ (fillSpace mm as).1 = none ∧ (fillSpace mm as).2.pmm = mm₀.pmm ∧
      UsedKept mm₀ (fillSpace mm as).2) ∨
    (Room mm₀.pmm ∧ ∃ g L, (fillSpace mm as).1 = some (frameToPhys g) ∧
      Took mm₀ (fillSpace mm as).2 as (f₀ :: L) ((f₀ :: L).toFinset ∪ chunkFrames g) ∧
      Disjoint (f₀ :: L).toFinset (chunkFrames g)) := by
  have hcount : mm.pmm.freeCount + 1 = mm₀.pmm.freeCount := by simpa using htook.holds.freeCount
  have hone : ([f₀] : List Nat).toFinset = {f₀} := rfl
  rcases pmmAllocPages_after htook.holds hlow with
    ⟨hroom, heq⟩ | ⟨g, hg, heq, hend, hfree, hmany⟩
  · have hfill : fillSpace mm as = (none, asDestroy mm as) := by
      simp [fillSpace, heq]
    have hback := htook.owns.destroy htook.holds (by rw [hone])
    rw [hone, Finset.sdiff_self] at hback
    rw [hfill]
    refine .inl ⟨hroom, rfl, hback.eq_of_empty, ?_⟩
    intro x hx
    rw [(asDestroy_eq htook.owns.nonzero htook.owns.self htook.owns.region).2]
    exact htook.usedKept x hx
  -- With the chunk taken, the tables are built.
  have htook₁ : Took mm₀ { mm with pmm := mm.pmm.take g 1024 } as [f₀] ({f₀} ∪ chunkFrames g) := by
    refine ⟨⟨htook.owns.nonzero, htook.owns.self, htook.owns.region, htook.owns.tables,
      htook.owns.nodup⟩, by rw [hone]; exact subset_union_left,
      htook.holds.take hend hfree hmany, fun x hx => ?_⟩
    exact htook.mem x fun f hf => hx f (Finset.mem_union_left _ hf)
  obtain ⟨L, code, mm', hmap, htook₂, hnew, hcode⟩ :=
    htook₁.mapBlock hwf hpgd hempty (regionOf_aligned (frameToPhys g))
  have hset : L.toFinset ∪ ({f₀} ∪ chunkFrames g) = (f₀ :: L).toFinset ∪ chunkFrames g := by
    rw [toFinset_cons, ← union_assoc, union_comm L.toFinset,
      ← Finset.insert_eq]
  have hapart : Disjoint (f₀ :: L).toFinset (chunkFrames g) := by
    rw [Finset.disjoint_left]
    intro x hx hchunk
    rcases List.mem_cons.mp (mem_toFinset.mp hx) with rfl | hx
    · have := (mem_Ico.mp hchunk).1
      omega
    · exact hnew x hx (Finset.mem_union_right _ hchunk)
  rw [hset] at htook₂
  have htwo : code = 0 ↔ 1027 ≤ mm₀.pmm.freeCount := by
    rw [hcode]
    simp only [Pmm.take]
    omega
  by_cases hok : code = 0
  · have hfill : fillSpace mm as = (some (frameToPhys g), mm') := by
      simp [fillSpace, heq, frameToPhys_ne_zero, hmap, hok]
    rw [hfill]
    refine .inr ⟨⟨htwo.mp hok, f₀, g, hg, hend, ?_, ?_⟩, g, L, rfl, htook₂, hapart⟩
    · exact (htook.holds.free f₀ (Finset.mem_singleton_self f₀)).2
    rw [runFree_iff]
    exact fun i hi => htook.holds.free_of_free (hfree i hi)
  have hfill : fillSpace mm as = (none, releaseSpace mm' as (frameToPhys g)) := by
    simp [fillSpace, heq, frameToPhys_ne_zero, hmap, hok]
  rw [hfill]
  refine .inl ⟨fun hroom => hok (htwo.mpr hroom.1), rfl,
    releaseSpace_pmm htook₂.owns htook₂.holds hapart, ?_⟩
  intro x hx
  rw [releaseSpace_mem htook₂.owns]
  exact htook₂.usedKept x hx

lemma buildSpace_spec (tables : KernelTables) (hpos : 0 < mm.heap.ptr)
  (hptr : mm.heap.ptr ≤ heapEnd) (hwf : mm.pmm.Wf)
  (hempty : mm.mem tables.pgd (tableIndex 3 userVaBase) = 0)
  (hused : ∀ f < totalFrames, mm.pmm.bitmap f = false → tables.pgd ≠ frameToPhys f) :
  (¬ (mm.heap.ptr + addrSpaceSize ≤ heapEnd ∧ Room mm.pmm) ∧
      (buildSpace tables mm).1 = none ∧ (buildSpace tables mm).2.pmm = mm.pmm ∧
      UsedKept mm (buildSpace tables mm).2) ∨
    ((mm.heap.ptr + addrSpaceSize ≤ heapEnd ∧ Room mm.pmm) ∧ ∃ g frames,
      (buildSpace tables mm).1 = some (mm.heap.ptr, frameToPhys g) ∧
      Took mm (buildSpace tables mm).2 mm.heap.ptr frames (frames.toFinset ∪ chunkFrames g) ∧
      Disjoint frames.toFinset (chunkFrames g)) := by
  have hkept : ∀ mm' : Mm Pmm, mm'.mem = mm.mem → UsedKept mm mm' := fun mm' heq x _ => by rw [heq]
  rcases asCreate_wf tables hpos hptr hwf with
    ⟨hfull, heq⟩ | ⟨hzero, mm', heq, hpmm, hmem⟩ | ⟨hfit, f₀, made, heq, htook, hlow, hpgd, hcopy⟩
  · have hbuild : buildSpace tables mm = (none, mm) := by simp [buildSpace, heq]
    rw [hbuild]
    exact .inl ⟨fun h => hfull h.1, rfl, rfl, hkept _ rfl⟩
  · -- No page for the PGD.
    have hbuild : buildSpace tables mm = (none, mm') := by simp [buildSpace, heq]
    rw [hbuild]
    refine .inl ⟨fun h => ?_, rfl, hpmm, hkept _ hmem⟩
    have := h.2.1
    omega
  obtain ⟨hf₀, hfree⟩ := htook.holds.free f₀ (Finset.mem_singleton_self f₀)
  have hrow : made.mem (frameToPhys f₀) (tableIndex 3 userVaBase) = 0 := by
    rw [hcopy (hused f₀ hf₀ hfree), hempty]
  have hbuild : buildSpace tables mm =
      ((fillSpace made mm.heap.ptr).1.map fun chunk => (mm.heap.ptr, chunk),
        (fillSpace made mm.heap.ptr).2) := by
    simp [buildSpace, heq, hpos.ne']
  rw [hbuild]
  rcases fillSpace_spec htook hwf hlow hpgd hrow with
    ⟨hroom, hnone, hpmm, hmem⟩ | ⟨hroom, g, L, hsome, htook', hapart⟩
  · exact .inl ⟨fun h => hroom h.2, by rw [hnone]; rfl, hpmm, hmem⟩
  · exact .inr ⟨⟨hfit, hroom⟩, g, f₀ :: L, by rw [hsome]; rfl, htook', hapart⟩

/-! ## When a process can be created -/

structure CanSpawn (k : Kernel) (name : Option (List UInt8)) (image size entryOff : Nat) :
    Prop where
  name : name ≠ none
  args : imageArgs image size entryOff = true
  proc : freeProc k ≠ none
  heap : k.mm.heap.ptr + addrSpaceSize ≤ heapEnd
  pages : Room k.mm.pmm
  slot : slotAlloc k.sched ≠ none

structure TablesSafe (c : Statics) (mm : Mm Pmm) : Prop where
  empty : mm.mem c.pgd (tableIndex 3 userVaBase) = 0
  used : ∀ f < totalFrames, mm.pmm.bitmap f = false → c.pgd ≠ frameToPhys f

lemma Boot.tablesSafe (hboot : Boot c k) : TablesSafe c k.mm := by
  obtain ⟨mem, hmem⟩ := hboot.tables
  refine ⟨?_, fun f hf hfree heq => ?_⟩
  · rw [hmem, vmmInit_pgd]
    exact if_neg (by decide)
  · exact hboot.kernelPages (frameToPhys f) ⟨f, hf, rfl, hfree⟩ (.inl heq.symm)

structure Gained (mm mm' : Mm Pmm) (as g : Nat) (frames : List Nat) : Prop where
  took : Took mm mm' as frames (frames.toFinset ∪ chunkFrames g)
  apart : Disjoint frames.toFinset (chunkFrames g)

variable {s : Sched.State}

lemma spawnSlot_of_slot {slot : Nat} (halloc : slotAlloc s = some slot)
  (fill : Task → Task) : spawnSlot s true fill = (some slot, s.setTask slot fill) := by
  simp [spawnSlot, halloc]

lemma spawnSlot_of_full (halloc : slotAlloc s = none) (valid : Bool)
  (fill : Task → Task) : spawnSlot s valid fill = (none, s) := by
  simp [spawnSlot, halloc]

lemma spawnUserArgs_image (c : Statics) (slot entryOff : Nat) :
  spawnUserArgs (userVaBase + entryOff) userSp (c.kstacks + slot * procKstackSize)
    procKstackSize = true := by
  have hsp : userSp ≠ 0 := by decide
  have hentry : userVaBase + entryOff ≠ 0 := by
    simp only [userVaBase]
    omega
  have hstack : c.kstacks + slot * procKstackSize ≠ 0 := by
    have := c.kstacks_pos
    omega
  have hsize : 256 ≤ procKstackSize := by decide
  simp only [spawnUserArgs, ne_eq, decide_eq_true_eq]
  exact ⟨hentry, hsp, hstack, hsize⟩

lemma procSpawnImage_spec (name : Option (List UInt8)) (image size entryOff : Nat)
  (hpos : 0 < k.mm.heap.ptr) (hend : k.mm.heap.ptr ≤ heapEnd) (hwf : k.mm.pmm.Wf)
  (hsafe : TablesSafe c k.mm) : (¬ CanSpawn k name image size entryOff ∧
      (procSpawnImage c k name image size entryOff).1 = -1 ∧
      (procSpawnImage c k name image size entryOff).2.mm.pmm = k.mm.pmm ∧
      UsedKept k.mm (procSpawnImage c k name image size entryOff).2.mm) ∨
    (CanSpawn k name image size entryOff ∧
      (procSpawnImage c k name image size entryOff).1 = k.nextPid ∧
      ∃ g frames, Gained k.mm (procSpawnImage c k name image size entryOff).2.mm
        k.mm.heap.ptr g frames) := by
  have hkept : UsedKept k.mm k.mm := fun _ _ => rfl
  unfold procSpawnImage
  cases name with
  | none => exact .inl ⟨fun h => h.name rfl, rfl, rfl, hkept⟩
  | some name =>
    by_cases hargs : imageArgs image size entryOff = true
    swap
    · rw [Bool.not_eq_true] at hargs
      rw [hargs]
      exact .inl ⟨fun h => absurd (h.args.symm.trans hargs) (by decide), rfl, rfl, hkept⟩
    simp only [hargs, Bool.not_true, Bool.false_eq_true, if_false]
    cases hfree : freeProc k with
    | none => exact .inl ⟨fun h => h.proc hfree, rfl, rfl, hkept⟩
    | some pcb =>
      rcases buildSpace_spec c.toKernelTables hpos hend hwf hsafe.empty hsafe.used with
        ⟨hcannot, hnone, hpmm, hmem⟩ | ⟨⟨hheap, hroom⟩, g, frames, hsome, htook, hapart⟩
      · rcases hbuild : buildSpace c.toKernelTables k.mm with ⟨built, mm⟩
        rw [hbuild] at hnone hpmm hmem
        obtain rfl : built = none := hnone
        exact .inl ⟨fun h => hcannot ⟨h.heap, h.pages⟩, rfl, hpmm, hmem⟩
      rcases hbuild : buildSpace c.toKernelTables k.mm with ⟨built, mm⟩
      rw [hbuild] at hsome htook
      obtain rfl : built = some (k.mm.heap.ptr, frameToPhys g) := hsome
      dsimp only at htook ⊢
      unfold schedSpawnUserTask
      rw [spawnUserArgs_image]
      cases halloc : slotAlloc k.sched with
      | none =>
        rw [spawnSlot_of_full halloc]
        refine .inl ⟨fun h => h.slot halloc, rfl, releaseSpace_pmm htook.owns htook.holds hapart,
          ?_⟩
        intro x hx
        exact (congrFun (releaseSpace_mem htook.owns _) x).trans (htook.usedKept x hx)
      | some slot =>
        rw [spawnSlot_of_slot halloc]
        refine .inr ⟨⟨by simp, hargs, by rw [hfree]; simp, hheap, hroom,
          by rw [halloc]; simp⟩, rfl, g, frames, htook, hapart⟩

lemma procSpawnImage_of_built {name : List UInt8} {image size entryOff slot chunk tidx : Nat}
  {sched : Sched.State} (hargs : imageArgs image size entryOff = true)
  (hfree : freeProc k = some slot)
  (hbuild : buildSpace c.toKernelTables k.mm = (some (as, chunk), mm))
  (hspawn : schedSpawnUserTask k.sched name as (userVaBase + entryOff) userSp k.nextPid
    (c.kstacks + slot * procKstackSize) procKstackSize = (some tidx, sched)) :
  procSpawnImage c k (some name) image size entryOff =
    (k.nextPid, k.withProcess sched mm name slot tidx as) := by
  simp [procSpawnImage, hargs, hfree, hbuild, hspawn]

/-! ## The first process after boot -/

def sampleStatics : Statics :=
  { sampleTables with
    kstacks := 0x40093000
    legacyStacks := 0x40095000
    kstacks_pos := by decide }

def sampleSched : Sched.State :=
  schedInit { tasks := fun _ => idleTask, current := none, uptime := 0, watchdogLimit := 600 } []

def sampleKernel : Kernel where
  sched := sampleSched
  mm := sampleMm
  procs := fun _ =>
    { state := .none, pid := 0, parent := 0, taskIdx := some 0, as := 0, name := [],
      exitCode := 0, fdTable := fun _ => 0 }
  nextPid := 1
  kernelFdTable := fun _ => 0
  legacyStackCount := 0

lemma boot_sampleKernel : Boot sampleStatics sampleKernel where
  sched := ⟨_, _, rfl⟩
  procs _ := rfl
  nextPid := rfl
  active := rfl
  heap_pos := by decide
  heap_end := by decide
  tables := ⟨_, rfl⟩
  pages := pmmInit_wf
  kernelPages := sampleMm_kernelPages

lemma room_pmmInit : Room pmmInit := by
  have hreserve : reserveEndFrame = 4736 := by decide
  have htotal : totalFrames = 32768 := by decide
  have hfree : ∀ f, 4736 ≤ f → f < 32768 → pmmInit.bitmap f = false := by
    intro f hlo hhi
    have hiff := (pmmInit_bitmap f (by omega)).not
    simpa using hiff.mpr (by omega)
  refine ⟨by rw [pmmInit_freeCount]; decide, 4736, 4737, by decide, by decide,
    hfree 4736 le_rfl (by decide), ?_⟩
  rw [runFree_iff]
  exact fun i hi => hfree (4737 + i) (by omega) (by omega)

def firstSched : Sched.State :=
  (schedSpawnUserTask sampleSched [105, 110, 105, 116] heapStart (userVaBase + 0) userSp 1
    (sampleStatics.kstacks + 0 * procKstackSize) procKstackSize).2

def firstKernel (mm : Mm Pmm) : Kernel :=
  sampleKernel.withProcess firstSched mm [105, 110, 105, 116] 0 1 heapStart

def firstSpace : Option (Nat × Nat) × Mm Pmm :=
  buildSpace sampleStatics.toKernelTables sampleKernel.mm

lemma spawn_first : procSpawnImage sampleStatics sampleKernel (some [105, 110, 105, 116]) 1 4 0 =
    (1, firstKernel firstSpace.2) := by
  have hfree : freeProc sampleKernel = some 0 := rfl
  have hsafe := boot_sampleKernel.tablesSafe
  have hspec := buildSpace_spec sampleStatics.toKernelTables boot_sampleKernel.heap_pos
    boot_sampleKernel.heap_end boot_sampleKernel.pages hsafe.empty hsafe.used
  have hspace : buildSpace sampleStatics.toKernelTables sampleKernel.mm = firstSpace := rfl
  rw [hspace] at hspec
  generalize firstSpace = space at hspec hspace ⊢
  obtain ⟨built, mm⟩ := space
  rcases hspec with ⟨hcannot, _⟩ | ⟨_, g, frames, hsome, _⟩
  · exact absurd ⟨by decide, room_pmmInit⟩ hcannot
  have hslot : (schedSpawnUserTask sampleKernel.sched [105, 110, 105, 116] heapStart
      (userVaBase + 0) userSp sampleKernel.nextPid
      (sampleStatics.kstacks + 0 * procKstackSize) procKstackSize).1 = some 1 := by decide
  obtain rfl : built = some (heapStart, frameToPhys g) := hsome
  exact procSpawnImage_of_built (by decide) hfree hspace (Prod.ext hslot rfl)

def sampleWorld : World :=
  { kernel := sampleKernel, owner := fun _ => none, spawned := [], reaped := [] }

def firstWorld (mm : Mm Pmm) : World where
  kernel := firstKernel mm
  owner := Function.update (fun _ => none) 1 (some ⟨0, 1⟩)
  spawned := [1]
  reaped := []

lemma sampleWorld_init : (machine sampleStatics).init sampleWorld :=
  ⟨boot_sampleKernel, rfl, rfl, rfl⟩

def firstSpawn : Event := .spawnImage (some [105, 110, 105, 116]) 1 4 0

lemma step_firstSpawn :
  (machine sampleStatics).step sampleWorld firstSpawn = firstWorld firstSpace.2 := by
  have hspawn := spawn_first
  generalize firstSpace.2 = mm at hspawn ⊢
  have hreact : kernelReact sampleStatics sampleKernel firstSpawn =
      (firstKernel mm, .process 1 0 1) := by
    simp only [kernelReact, firstSpawn, hspawn]
    rfl
  simp only [machine, sampleWorld, hreact]
  rfl

lemma run_firstSpawn :
  (machine sampleStatics).Run sampleWorld [firstSpawn] (firstWorld firstSpace.2) := by
  refine .cons ⟨0, rfl, rfl⟩ ?_
  rw [step_firstSpawn]
  exact .nil _

lemma run_after_first (es : List Event)
  (hadmits : (machine sampleStatics).admitsAll (firstWorld firstSpace.2) es = true) :
  (machine sampleStatics).Run sampleWorld (firstSpawn :: es)
    (es.foldl (machine sampleStatics).step (firstWorld firstSpace.2)) :=
  run_firstSpawn.append ((machine sampleStatics).run_of_admitsAll _ es hadmits)

end Aeos.Proc
