/-
# The address space that is loaded

Whenever a task executes, `as_active` is its `as` field, and that address space is alive. The
invariant behind it is that a task that can run and has an address space is the task of a live
process that owns it.
-/

import Aeos.Proc.Memory

namespace Aeos.Proc

open Lib Mem Sched Option Function

/-! ## What building and releasing memory leaves alone -/

structure Outside (as : Nat) (mm mm' : Mm Pmm) : Prop where
  heap : mm'.heap = mm.heap
  active : mm'.asActive = mm.asActive
  other : ∀ x, x ≠ as → mm'.spaces x = mm.spaces x

variable {as : Nat} {mm mm' mm'' : Mm Pmm}

lemma Outside.trans (h : Outside as mm mm') (h' : Outside as mm' mm'') : Outside as mm mm'' where
  heap := h'.heap.trans h.heap
  active := h'.active.trans h.active
  other x hx := (h'.other x hx).trans (h.other x hx)

def Builds (as : Nat) (mm mm' : Mm Pmm) : Prop :=
  Outside as mm mm' ∧ (mm'.spaces as).self = (mm.spaces as).self

lemma Builds.refl (as : Nat) (mm : Mm Pmm) : Builds as mm mm :=
  ⟨⟨rfl, rfl, fun _ _ => rfl⟩, rfl⟩

lemma Builds.trans (h : Builds as mm mm') (h' : Builds as mm' mm'') : Builds as mm mm'' :=
  ⟨h.1.trans h'.1, h'.2.trans h.2⟩

lemma builds_asAllocTable (mm : Mm Pmm) (as : Nat) : Builds as mm (asAllocTable mm as).2 := by
  unfold asAllocTable
  dsimp only
  split_ifs
  · exact ⟨⟨rfl, rfl, fun _ _ => rfl⟩, rfl⟩
  · exact ⟨⟨rfl, rfl, fun x hx => update_of_ne hx _ _⟩, by simp⟩

lemma builds_nextTable (mm : Mm Pmm) (as table i : Nat) :
  Builds as mm (nextTable mm as table i).2 := by
  unfold nextTable
  dsimp only
  split_ifs
  · exact builds_asAllocTable mm as
  · obtain ⟨⟨hheap, hactive, hother⟩, hself⟩ := builds_asAllocTable mm as
    exact ⟨⟨hheap, hactive, hother⟩, hself⟩
  · exact Builds.refl as mm

lemma builds_asMapBlock (mm : Mm Pmm) (as va pa attrs : Nat) :
  Builds as mm (asMapBlock mm as va pa attrs).2 := by
  unfold asMapBlock
  split_ifs
  · exact Builds.refl as mm
  · exact Builds.refl as mm
  have hfirst := builds_nextTable mm as (mm.spaces as).pgd (tableIndex 3 va)
  rcases hnext₁ : nextTable mm as (mm.spaces as).pgd (tableIndex 3 va) with ⟨_ | pud, mm₁⟩
  · rw [hnext₁] at hfirst
    exact hfirst
  rw [hnext₁] at hfirst
  have hsecond := builds_nextTable mm₁ as pud (tableIndex 2 va)
  dsimp only
  rcases hnext₂ : nextTable mm₁ as pud (tableIndex 2 va) with ⟨_ | pmd, mm₂⟩
  · rw [hnext₂] at hsecond
    exact hfirst.trans hsecond
  rw [hnext₂] at hsecond
  obtain ⟨⟨hheap, hactive, hother⟩, hself⟩ := hfirst.trans hsecond
  exact ⟨⟨hheap, hactive, hother⟩, hself⟩

lemma outside_asDestroy (hactive : mm.asActive ≠ as) : Outside as mm (asDestroy mm as) := by
  unfold asDestroy
  split_ifs
  · exact ⟨rfl, rfl, fun _ _ => rfl⟩
  simp only [hactive, if_false, Mm.setSpace]
  exact ⟨rfl, rfl, fun x hx => update_of_ne hx _ _⟩

lemma outside_releaseSpace (chunk : Nat) (hactive : mm.asActive ≠ as) :
  Outside as mm (releaseSpace mm as chunk) := by
  have hdestroy : Outside as { mm with pmm := pmmFreePages mm.pmm chunk 1024 }
      (releaseSpace mm as chunk) := outside_asDestroy hactive
  exact ⟨hdestroy.heap, hdestroy.active, hdestroy.other⟩

structure Constructs (mm mm' : Mm Pmm) : Prop where
  active : mm'.asActive = mm.asActive
  other : ∀ x, x ≠ mm.heap.ptr → mm'.spaces x = mm.spaces x
  heap_le : mm.heap.ptr ≤ mm'.heap.ptr
  heap_end : mm'.heap.ptr ≤ heapEnd

lemma Constructs.outside (h : Constructs mm mm') (h' : Outside mm.heap.ptr mm' mm'') :
  Constructs mm mm'' where
  active := h'.active.trans h.active
  other x hx := (h'.other x hx).trans (h.other x hx)
  heap_le := by rw [h'.heap]; exact h.heap_le
  heap_end := by rw [h'.heap]; exact h.heap_end

lemma fillSpace_outside (hactive : mm.asActive ≠ as) : Outside as mm (fillSpace mm as).2 ∧
    ((fillSpace mm as).1 ≠ none → ((fillSpace mm as).2.spaces as).self = (mm.spaces as).self) := by
  have hchunk : Builds as mm { mm with pmm := (pmmAllocPages mm.pmm 1024).2 } :=
    ⟨⟨rfl, rfl, fun _ _ => rfl⟩, rfl⟩
  have hmap := hchunk.trans (builds_asMapBlock _ as userVaBase
    (regionOf (pmmAllocPages mm.pmm 1024).1) userBlockRwx)
  unfold fillSpace
  dsimp only
  split_ifs
  · exact ⟨hchunk.1.trans (outside_asDestroy hactive), fun h => absurd rfl h⟩
  · refine ⟨hmap.1.trans (outside_releaseSpace _ ?_), fun h => absurd rfl h⟩
    rw [hmap.1.active]
    exact hactive
  · exact ⟨hmap.1, fun _ => hmap.2⟩

lemma buildSpace_constructs (tables : KernelTables) {built : Option (Nat × Nat)}
  (hpos : 0 < mm.heap.ptr) (hptr : mm.heap.ptr ≤ heapEnd) (hactive : mm.asActive ≠ mm.heap.ptr)
  (hbuild : buildSpace tables mm = (built, mm')) :
  Constructs mm mm' ∧ ∀ as chunk, built = some (as, chunk) →
    as = mm.heap.ptr ∧ as < mm'.heap.ptr ∧ (mm'.spaces as).self = as := by
  unfold buildSpace at hbuild
  rcases asCreate_cases tables hpos hptr with ⟨_, heq⟩ | ⟨hfit, ⟨_, heq⟩ | ⟨a, _, _, heq⟩⟩
  · rw [heq] at hbuild
    obtain ⟨rfl, rfl⟩ := Prod.mk.inj hbuild
    exact ⟨⟨rfl, fun _ _ => rfl, le_rfl, hptr⟩, by simp⟩
  · rw [heq] at hbuild
    obtain ⟨rfl, rfl⟩ := Prod.mk.inj hbuild
    refine ⟨⟨rfl, fun x hx => update_of_ne hx _ _, ?_, hfit⟩, by simp⟩
    exact Nat.le_add_right _ _
  rw [heq] at hbuild
  simp only [hpos.ne', if_false] at hbuild
  obtain ⟨rfl, rfl⟩ := Prod.mk.inj hbuild
  generalize hmade : ({ mm with
    heap := mm.heap.afterSpace
    pmm := (PageSource.allocPage mm.pmm).2
    mem := update mm.mem a (update mm.mem a (fun _ => 0) tables.pgd)
    spaces := update mm.spaces mm.heap.ptr ⟨a, [a], 0, mm.heap.ptr⟩ } : Mm Pmm) = made
  have hconstructs : Constructs mm made := by
    rw [← hmade]
    refine ⟨rfl, fun x hx => update_of_ne hx _ _, ?_, hfit⟩
    exact Nat.le_add_right _ _
  have hself : (made.spaces mm.heap.ptr).self = mm.heap.ptr := by
    rw [← hmade]
    simp
  have hptr' : mm.heap.ptr < made.heap.ptr := by
    rw [← hmade]
    exact Nat.lt_add_of_pos_right (by decide)
  have hnot : made.asActive ≠ mm.heap.ptr := by rwa [hconstructs.active]
  obtain ⟨houtside, hkept⟩ := fillSpace_outside hnot
  refine ⟨hconstructs.outside houtside, fun as chunk hbuilt => ?_⟩
  cases hfilled : (fillSpace made mm.heap.ptr).1 with
  | none =>
    rw [hfilled] at hbuilt
    cases hbuilt
  | some c =>
    rw [hfilled] at hbuilt
    obtain ⟨rfl, rfl⟩ := Prod.mk.inj (some.inj hbuilt)
    refine ⟨rfl, ?_, ?_⟩
    · rw [houtside.heap]
      exact hptr'
    · rw [hkept (by rw [hfilled]; simp), hself]

def Backs (k : Kernel) (p i : Nat) : Prop :=
  (k.procs p).state = .alive ∧ (k.procs p).as = (k.sched.tasks i).as ∧
    (k.procs p).taskIdx = some i

structure SpaceInv (k : Kernel) : Prop where
  runner : OneRunner k.sched.view
  active : ∀ cur, k.sched.current = some cur → k.mm.asActive = (k.sched.tasks cur).as
  backed : ∀ i < maxTasks, Live k.sched.view i → (k.sched.tasks i).as ≠ 0 → ∃ p, Backs k p i
  made : ∀ p, (k.procs p).state ≠ .none →
    (k.procs p).as ≠ 0 ∧ (k.procs p).as < k.mm.heap.ptr ∧
      (k.mm.spaces (k.procs p).as).self = (k.procs p).as
  distinct : ∀ p q, (k.procs p).state ≠ .none → (k.procs q).state ≠ .none →
    (k.procs p).as = (k.procs q).as → p = q
  loaded : k.mm.asActive < k.mm.heap.ptr
  heap_end : k.mm.heap.ptr ≤ heapEnd

namespace SpaceInv

variable {c : Statics} {k k' : Kernel}

lemma heap_pos (h : SpaceInv k) : 0 < k.mm.heap.ptr := Nat.zero_lt_of_lt h.loaded

variable {i cur slot : Nat}

lemma as_lt (h : SpaceInv k) (hi : i < maxTasks) (hlive : Live k.sched.view i) :
  (k.sched.tasks i).as < k.mm.heap.ptr := by
  by_cases hzero : (k.sched.tasks i).as = 0
  · rw [hzero]
    exact h.heap_pos
  obtain ⟨p, halive, has, _⟩ := h.backed i hi hlive hzero
  rw [← has]
  exact (h.made p (by rw [halive]; simp)).2.1

lemma backs_of_same {p : Nat} (hbacks : Backs k p i) (hpcb : SamePcb (k.procs p) (k'.procs p))
  (has : (k'.sched.tasks i).as = (k.sched.tasks i).as) : Backs k' p i := by
  obtain ⟨halive, hspace, htask⟩ := hbacks
  obtain ⟨hstate, _, htaskIdx, has'⟩ := hpcb
  exact ⟨by rw [hstate, halive], by rw [has', has, hspace], by rw [htaskIdx, htask]⟩

lemma of_kept (h : SpaceInv k) (hrunner : OneRunner k'.sched.view) (has : SameAs k.sched k'.sched)
  (hlive : ∀ i, Live k'.sched.view i → Live k.sched.view i)
  (hprocs : ∀ p, ((k'.procs p).state = .none ↔ (k.procs p).state = .none) ∧
    (k'.procs p).as = (k.procs p).as)
  (hbacks : ∀ i p, Live k'.sched.view i → Backs k p i → Backs k' p i)
  (hactive : ∀ cur, k'.sched.current = some cur → k'.mm.asActive = (k'.sched.tasks cur).as)
  (hloaded : k'.mm.asActive < k.mm.heap.ptr) (hheap : k'.mm.heap = k.mm.heap)
  (hspaces : k'.mm.spaces = k.mm.spaces) : SpaceInv k' := by
  refine ⟨hrunner, hactive, fun i hlt hi hne => ?_, fun p hp => ?_, fun p q hp hq heq => ?_,
    by rwa [hheap], by rw [hheap]; exact h.heap_end⟩
  · rw [has i] at hne
    obtain ⟨p, hp⟩ := h.backed i hlt (hlive i hi) hne
    exact ⟨p, hbacks i p hi hp⟩
  · rw [(hprocs p).2, hheap, hspaces]
    exact h.made p (mt (hprocs p).1.mpr hp)
  rw [(hprocs p).2, (hprocs q).2] at heq
  exact h.distinct p q (mt (hprocs p).1.mpr hp) (mt (hprocs q).1.mpr hq) heq

lemma active_switchedMm (h : SpaceInv k) (hcur : k.sched.current = some cur) (next : Nat) :
  (switchedMm k cur next).asActive = (k.sched.tasks next).as := by
  unfold switchedMm
  split_ifs with hne
  · rfl
  rw [h.active cur hcur]
  exact not_not.mp hne

lemma switchedMm_kept (k : Kernel) (cur next : Nat) :
  (switchedMm k cur next).heap = k.mm.heap ∧ (switchedMm k cur next).spaces = k.mm.spaces ∧
    (switchedMm k cur next).mem = k.mm.mem ∧ (switchedMm k cur next).pmm = k.mm.pmm := by
  unfold switchedMm
  split_ifs <;> exact ⟨rfl, rfl, rfl, rfl⟩

lemma backs_of_ended (hended : Ended k k') (has : SameAs k.sched k'.sched) {p : Nat}
  (hcur : k.sched.current = some cur) (hi : i ≠ cur) (hbacks : Backs k p i) : Backs k' p i := by
  refine backs_of_same hbacks ?_ (has i)
  rcases hended with hsame | ⟨q, hfound, hother, _⟩
  · rw [hsame]
    exact SamePcb.refl _
  rw [hother p fun heq => ?_]
  · exact SamePcb.refl _
  obtain ⟨_, _, htask⟩ := findByTask_some hfound
  rw [heq] at hbacks
  have hslot := hbacks.2.2.symm.trans htask
  rw [schedCurrentIndex, hcur] at hslot
  exact hi (some.inj hslot)

lemma procs_of_ended (hended : Ended k k') (p : Nat) :
  ((k'.procs p).state = .none ↔ (k.procs p).state = .none) ∧ (k'.procs p).as = (k.procs p).as := by
  rcases hended with hsame | ⟨q, hfound, hother, hzombie⟩
  · rw [hsame]
    exact ⟨Iff.rfl, rfl⟩
  by_cases hpq : p = q
  · subst hpq
    obtain ⟨hstate, _, _, has⟩ := hzombie
    refine ⟨?_, has⟩
    rw [hstate]
    simpa using (findByTask_some hfound).2.1
  rw [hother p hpq]
  exact ⟨Iff.rfl, rfl⟩

lemma ne_of_running_of_free (hrun : (k.sched.tasks cur).state = .running)
  (halloc : slotAlloc k.sched = some slot) : cur ≠ slot := by
  rintro rfl
  rcases (slotAlloc_some halloc).2 with h | h <;> rw [h] at hrun <;> cases hrun

lemma current_of_spawned {as : Nat} (hexec : Executing k.sched)
  (halloc : slotAlloc k.sched = some slot) (hview : k'.sched.view = k.sched.view.set slot .ready)
  (has : ∀ i, (k'.sched.tasks i).as = if i = slot then as else (k.sched.tasks i).as)
  (hcur : k'.sched.current = some cur) :
  k.sched.current = some cur ∧ (k'.sched.tasks cur).as = (k.sched.tasks cur).as := by
  obtain ⟨cur', hcur', hrun⟩ := hexec
  have hcurrent := congrArg View.cur hview
  obtain rfl : cur' = cur := some.inj (hcur'.symm.trans (hcurrent.symm.trans hcur))
  exact ⟨hcur', by rw [has, if_neg (ne_of_running_of_free hrun halloc)]⟩

section
variable (h : SpaceInv k)
include h

lemma step_task (hrunner : OneRunner k'.sched.view) (hexec : Executing k.sched)
  (halloc : slotAlloc k.sched = some slot) (hview : k'.sched.view = k.sched.view.set slot .ready)
  (has : ∀ i, (k'.sched.tasks i).as = if i = slot then 0 else (k.sched.tasks i).as)
  (hprocs : k'.procs = k.procs) (hmm : k'.mm = k.mm) : SpaceInv k' := by
  refine ⟨hrunner, ?_, ?_, ?_, ?_, ?_, ?_⟩
  · intro cur hcur'
    obtain ⟨hcur, hsame⟩ := current_of_spawned hexec halloc hview has hcur'
    rw [hmm, hsame]
    exact h.active cur hcur
  · intro i hlt hi hspace
    rw [has] at hspace
    split_ifs at hspace with hslot
    · exact absurd rfl hspace
    obtain ⟨p, hbacks⟩ := h.backed i hlt (live_of_spawned hview hslot hi) hspace
    refine ⟨p, backs_of_same hbacks (by rw [hprocs]; exact SamePcb.refl _) ?_⟩
    rw [has, if_neg hslot]
  · rw [hprocs, hmm]
    exact h.made
  · rw [hprocs]
    exact h.distinct
  · rw [hmm]
    exact h.loaded
  rw [hmm]
  exact h.heap_end

lemma step_process {pcb as chunk : Nat} (hrunner : OneRunner k'.sched.view)
  (hexec : Executing k.sched) (halloc : slotAlloc k.sched = some slot)
  (hfree : freeProc k = some pcb)
  (hbuild : buildSpace c.toKernelTables k.mm = (some (as, chunk), k'.mm))
  (hview : k'.sched.view = k.sched.view.set slot .ready)
  (has : ∀ i, (k'.sched.tasks i).as = if i = slot then as else (k.sched.tasks i).as)
  (hpcb : (k'.procs pcb).state = .alive ∧ (k'.procs pcb).pid = k.nextPid ∧
    (k'.procs pcb).taskIdx = some slot ∧ (k'.procs pcb).as = as)
  (hprocs : ∀ i, i ≠ pcb → k'.procs i = k.procs i) : SpaceInv k' := by
  obtain ⟨hconstructs, hnew⟩ :=
    buildSpace_constructs c.toKernelTables h.heap_pos h.heap_end h.loaded.ne hbuild
  obtain ⟨hptr, hlt, hself⟩ := hnew as chunk rfl
  obtain ⟨halive, _, htask, hspace⟩ := hpcb
  have hnone := (freeProc_some hfree).2
  -- The entry used was free, so every other process is an old one.
  have hold : ∀ p, (k.procs p).state ≠ .none → p ≠ pcb := by
    rintro p hp rfl
    exact hp hnone
  refine ⟨hrunner, ?_, ?_, ?_, ?_, ?_, hconstructs.heap_end⟩
  · intro cur hcur'
    obtain ⟨hcur, hsame⟩ := current_of_spawned hexec halloc hview has hcur'
    rw [hconstructs.active, hsame]
    exact h.active cur hcur
  · intro i hbound hi hzero
    by_cases hslot : i = slot
    · subst hslot
      exact ⟨pcb, halive, by rw [hspace, has, if_pos rfl], htask⟩
    rw [has, if_neg hslot] at hzero
    obtain ⟨p, hbacks⟩ := h.backed i hbound (live_of_spawned hview hslot hi) hzero
    have hpcb : p ≠ pcb := hold p (by rw [hbacks.1]; simp)
    refine ⟨p, backs_of_same hbacks (by rw [hprocs p hpcb]; exact SamePcb.refl _) ?_⟩
    rw [has, if_neg hslot]
  · intro p hp
    by_cases hpcb : p = pcb
    · subst hpcb
      rw [hspace]
      exact ⟨by rw [hptr]; exact h.heap_pos.ne', hlt, hself⟩
    rw [hprocs p hpcb] at hp ⊢
    obtain ⟨hzero, hbelow, hself'⟩ := h.made p hp
    refine ⟨hzero, hbelow.trans_le hconstructs.heap_le, ?_⟩
    rw [hconstructs.other _ hbelow.ne]
    exact hself'
  · have hfresh : ∀ p, p ≠ pcb → (k'.procs p).state ≠ .none → (k'.procs p).as ≠ as := by
      intro p hpcb hp
      rw [hprocs p hpcb] at hp ⊢
      rw [hptr]
      exact (h.made p hp).2.1.ne
    intro p q hp hq heq
    by_cases hpp : p = pcb <;> by_cases hqp : q = pcb
    · rw [hpp, hqp]
    · rw [hpp, hspace] at heq
      exact absurd heq.symm (hfresh q hqp hq)
    · rw [hqp, hspace] at heq
      exact absurd heq (hfresh p hpp hp)
    rw [hprocs p hpp] at hp heq
    rw [hprocs q hqp] at hq heq
    exact h.distinct p q hp hq heq
  rw [hconstructs.active]
  exact h.loaded.trans_le hconstructs.heap_le

lemma constructs_of_failed (hmm : buildSpace c.toKernelTables k.mm = (none, k'.mm) ∨
    ∃ as chunk mm, buildSpace c.toKernelTables k.mm = (some (as, chunk), mm) ∧
      k'.mm = releaseSpace mm as chunk) : Constructs k.mm k'.mm := by
  rcases hmm with hbuild | ⟨as, chunk, mm, hbuild, hmm⟩
  · exact (buildSpace_constructs _ h.heap_pos h.heap_end h.loaded.ne hbuild).1
  obtain ⟨hconstructs, hnew⟩ :=
    buildSpace_constructs _ h.heap_pos h.heap_end h.loaded.ne hbuild
  obtain ⟨rfl, _, _⟩ := hnew as chunk rfl
  rw [hmm]
  refine hconstructs.outside (outside_releaseSpace chunk ?_)
  rw [hconstructs.active]
  exact h.loaded.ne

lemma step_failed (hsched : k'.sched = k.sched) (hprocs : k'.procs = k.procs)
  (hmm : Constructs k.mm k'.mm) : SpaceInv k' := by
  refine ⟨by rw [hsched]; exact h.runner, ?_, ?_, ?_, ?_, ?_, hmm.heap_end⟩
  · rw [hsched, hmm.active]
    exact h.active
  · intro i hlt hi hzero
    rw [hsched] at hi hzero
    obtain ⟨p, hbacks⟩ := h.backed i hlt hi hzero
    exact ⟨p, backs_of_same hbacks (by rw [hprocs]; exact SamePcb.refl _) (by rw [hsched])⟩
  · intro p hp
    rw [hprocs] at hp ⊢
    obtain ⟨hzero, hbelow, hself⟩ := h.made p hp
    refine ⟨hzero, hbelow.trans_le hmm.heap_le, ?_⟩
    rw [hmm.other _ hbelow.ne]
    exact hself
  · rw [hprocs]
    exact h.distinct
  rw [hmm.active]
  exact h.loaded.trans_le hmm.heap_le

lemma backed_by_other {j : Nat} (hzombie : (k.procs i).state = .zombie) (hlt : j < maxTasks)
  (hj : Live k.sched.view j) (hzero : (k.sched.tasks j).as ≠ 0) : ∃ p, p ≠ i ∧ Backs k p j := by
  obtain ⟨p, hbacks⟩ := h.backed j hlt hj hzero
  refine ⟨p, ?_, hbacks⟩
  rintro rfl
  rw [hbacks.1] at hzombie
  cases hzombie

lemma active_ne_zombie (hexec : Executing k.sched) (hzombie : (k.procs i).state = .zombie) :
  k.mm.asActive ≠ (k.procs i).as := by
  have hlive : (k.procs i).state ≠ .none := by rw [hzombie]; simp
  obtain ⟨cur, hcur, hrun⟩ := hexec
  rw [h.active cur hcur]
  intro heq
  have hzero : (k.sched.tasks cur).as ≠ 0 := by
    rw [heq]
    exact (h.made i hlive).1
  obtain ⟨p, hpi, halive, hspace, _⟩ :=
    h.backed_by_other hzombie (h.runner.lt hcur) (.inr hrun) hzero
  exact hpi (h.distinct p i (by rw [halive]; simp) hlive (hspace.trans heq))

lemma step_reaped (hzombie : (k.procs i).state = .zombie) (hview : k'.sched.view = k.sched.view)
  (has : SameAs k.sched k'.sched) (hexec : Executing k.sched)
  (hprocs : ∀ j, j ≠ i → k'.procs j = k.procs j) (hpcb : (k'.procs i).state = .none)
  (hmm : k'.mm = asDestroy k.mm (k.procs i).as) : SpaceInv k' := by
  have hlive : (k.procs i).state ≠ .none := by rw [hzombie]; simp
  have hactive := h.active_ne_zombie hexec hzombie
  obtain ⟨hheap, hact, hother⟩ := outside_asDestroy hactive
  rw [← hmm] at hheap hact hother
  have hold := fun p (hp : (k'.procs p).state ≠ .none) => used_of_cleared hprocs hpcb hp
  refine ⟨by rw [hview]; exact h.runner, ?_, ?_, ?_, ?_, ?_, ?_⟩
  · intro cur hcur
    have hcur' := (congrArg View.cur hview).symm.trans hcur
    rw [hact, has cur]
    exact h.active cur hcur'
  · intro j hlt hj hzero
    rw [hview] at hj
    rw [has j] at hzero
    obtain ⟨p, hpi, hbacks⟩ := h.backed_by_other hzombie hlt hj hzero
    exact ⟨p, backs_of_same hbacks (by rw [hprocs p hpi]; exact SamePcb.refl _) (has j)⟩
  · intro p hp
    obtain ⟨hpi, hp₀, heq⟩ := hold p hp
    obtain ⟨hzero, hbelow, hself⟩ := h.made p hp₀
    rw [heq]
    refine ⟨hzero, by rwa [hheap], ?_⟩
    rw [hother _ fun has => hpi (h.distinct p i hp₀ hlive has)]
    exact hself
  · intro p q hp hq heq
    obtain ⟨-, hp₀, heqp⟩ := hold p hp
    obtain ⟨-, hq₀, heqq⟩ := hold q hq
    rw [heqp, heqq] at heq
    exact h.distinct p q hp₀ hq₀ heq
  · rw [hact, hheap]
    exact h.loaded
  rw [hheap]
  exact h.heap_end

lemma move {o : Outcome} (hmove : Move c k k' o) : SpaceInv k' := by
  have hrunner := hmove.oneRunner h.runner
  cases hmove with
  | quiet hview has hprocs hmm =>
    refine h.of_kept hrunner has (fun i hi => by rwa [hview] at hi) (fun p => ?_)
      (fun i p _ hb => backs_of_same hb (hprocs p) (has i)) (fun cur hcur => ?_)
      (by rw [hmm]; exact h.loaded) (by rw [hmm]) (by rw [hmm])
    · obtain ⟨hstate, _, _, has'⟩ := hprocs p
      rw [hstate]
      exact ⟨Iff.rfl, has'⟩
    rw [hmm, has cur]
    exact h.active cur ((congrArg View.cur hview).symm.trans hcur)
  | task slot hexec halloc hview has hprocs hmm =>
    exact h.step_task hrunner hexec halloc hview has hprocs hmm
  | process slot pcb as chunk hexec halloc hfree hbuild hview has hpcb hprocs =>
    exact h.step_process hrunner hexec halloc hfree hbuild hview has hpcb hprocs
  | failed hsched hprocs hmm =>
    exact h.step_failed hsched hprocs (h.constructs_of_failed hmm)
  | switched cur next hcur hrun hnext hview has hprocs hmm =>
    obtain ⟨hlt, hready⟩ := View.next_some (h.runner.lt hcur) hnext
    have hlive : ∀ i, Live k'.sched.view i → Live k.sched.view i := by
      intro i hi
      rw [hview] at hi
      exact live_of_handed (h.runner.lt hcur) hrun hnext hi
    obtain ⟨hheap, hspaces, _, _⟩ := switchedMm_kept k cur next
    have hactive := h.active_switchedMm hcur next
    refine h.of_kept hrunner has hlive (fun p => by rw [hprocs]; exact ⟨Iff.rfl, rfl⟩)
      (fun i p _ hb => backs_of_same hb (by rw [hprocs]; exact SamePcb.refl _) (has i)) ?_
      ?_ (by rw [hmm, hheap]) (by rw [hmm, hspaces])
    · intro cur' hcur'
      obtain rfl : next = cur' :=
        some.inj ((congrArg View.cur hview).symm.trans hcur')
      rw [hmm, hactive, has next]
    rw [hmm, hactive]
    exact h.as_lt hlt (.inl hready)
  | retired cur next hcur hrun hnext hview has hended hmm =>
    obtain ⟨hlt, hready⟩ := View.next_some (h.runner.lt hcur) hnext
    have hlive : ∀ i, Live k'.sched.view i → i ≠ cur ∧ Live k.sched.view i := by
      intro i hi
      rwa [hview, live_handTo hready, live_set_finished] at hi
    replace hready := (View.of_set_st (by simp) hready).2
    obtain ⟨hheap, hspaces, _, _⟩ := switchedMm_kept k cur next
    have hactive := h.active_switchedMm hcur next
    refine h.of_kept hrunner has (fun i hi => (hlive i hi).2) (procs_of_ended hended)
      (fun i p hi hb => backs_of_ended hended has hcur (hlive i hi).1 hb) ?_
      ?_ (by rw [hmm, hheap]) (by rw [hmm, hspaces])
    · intro cur' hcur'
      obtain rfl : next = cur' :=
        some.inj ((congrArg View.cur hview).symm.trans hcur')
      rw [hmm, hactive, has next]
    rw [hmm, hactive]
    exact h.as_lt hlt (.inl hready)
  | parked cur hcur hrun hnone hview has hended hmm =>
    have hlive : ∀ i, Live k'.sched.view i → i ≠ cur ∧ Live k.sched.view i := by
      intro i hi
      rwa [hview, live_set_finished] at hi
    refine h.of_kept hrunner has (fun i hi => (hlive i hi).2) (procs_of_ended hended)
      (fun i p hi hb => backs_of_ended hended has hcur (hlive i hi).1 hb) ?_
      (by rw [hmm]; exact h.loaded) (by rw [hmm]) (by rw [hmm])
    intro cur' hcur'
    rw [hmm, has cur']
    exact h.active cur' ((congrArg View.cur hview).symm.trans hcur')
  | reaped pid i hexec hfound hzombie hview has hprocs hpcb hmm =>
    exact h.step_reaped hzombie hview has hexec hprocs hpcb hmm

end

lemma boot (hboot : Boot c k) : SpaceInv k := by
  obtain ⟨before, mainName, hsched⟩ := hboot.sched
  have hzero : ∀ i < maxTasks, (k.sched.tasks i).as = 0 := by
    intro i hi
    rw [hsched]
    simp only [schedInit]
    split_ifs <;> rfl
  refine ⟨?_, ?_, ?_, ?_, ?_, ?_, hboot.heap_end⟩
  · rw [hsched]
    exact oneRunner_schedInit before mainName
  · intro cur hcur
    have hlt : cur < maxTasks := by
      rw [hsched] at hcur
      exact (oneRunner_schedInit before mainName).lt hcur
    rw [hboot.active, hzero cur hlt]
  · exact fun i hlt _ hne => absurd (hzero i hlt) hne
  · exact fun p hp => absurd (hboot.procs p) hp
  · exact fun p q hp => absurd (hboot.procs p) hp
  rw [hboot.active]
  exact hboot.heap_pos

end SpaceInv

/-! ## Moves of the process table

What a move means for processes and their memory, the scheduler left out. -/

def EntryKept (p q : Pcb) : Prop :=
  (q.state = .none ↔ p.state = .none) ∧ q.pid = p.pid ∧ q.as = p.as

structure MmKept (mm mm' : Mm Pmm) : Prop where
  heap : mm'.heap = mm.heap
  spaces : mm'.spaces = mm.spaces
  mem : mm'.mem = mm.mem
  pmm : mm'.pmm = mm.pmm

inductive ProcMove (c : Statics) (k k' : Kernel) : Outcome → Prop
  | kept {o : Outcome} (ho : o = .quiet ∨ ∃ slot, o = .task slot)
      (hprocs : ∀ p, EntryKept (k.procs p) (k'.procs p)) (hmm : MmKept k.mm k'.mm) :
      ProcMove c k k' o
  | failed (hprocs : k'.procs = k.procs)
      (hmm : buildSpace c.toKernelTables k.mm = (none, k'.mm) ∨
        ∃ as chunk mm, buildSpace c.toKernelTables k.mm = (some (as, chunk), mm) ∧
          k'.mm = releaseSpace mm as chunk) : ProcMove c k k' .quiet
  | process (slot pcb as chunk : Nat)
      (hbuild : buildSpace c.toKernelTables k.mm = (some (as, chunk), k'.mm))
      (hpcb : (k'.procs pcb).pid = k.nextPid ∧ (k'.procs pcb).as = as)
      (hprocs : ∀ i, i ≠ pcb → k'.procs i = k.procs i) :
      ProcMove c k k' (.process slot pcb k.nextPid)
  | reaped (pid : Int) (i : Nat) (hexec : Executing k.sched) (hfound : findPid k pid = some i)
      (hzombie : (k.procs i).state = .zombie) (hprocs : ∀ j, j ≠ i → k'.procs j = k.procs j)
      (hpcb : (k'.procs i).state = .none) (hmm : k'.mm = asDestroy k.mm (k.procs i).as) :
      ProcMove c k k' (.reaped pid)

section
variable {c : Statics} {k k' : Kernel}

lemma EntryKept.of_eq {p q : Pcb} (h : q = p) : EntryKept p q := by
  rw [h]
  exact ⟨Iff.rfl, rfl, rfl⟩

lemma MmKept.of_eq {mm mm' : Mm Pmm} (h : mm' = mm) : MmKept mm mm' := by
  rw [h]
  exact ⟨rfl, rfl, rfl, rfl⟩

lemma mmKept_switchedMm (k : Kernel) (cur next : Nat) : MmKept k.mm (switchedMm k cur next) := by
  obtain ⟨hheap, hspaces, hmem, hpmm⟩ := SpaceInv.switchedMm_kept k cur next
  exact ⟨hheap, hspaces, hmem, hpmm⟩

lemma entryKept_of_ended (hended : Ended k k') (p : Nat) : EntryKept (k.procs p) (k'.procs p) := by
  obtain ⟨hstate, has⟩ := SpaceInv.procs_of_ended hended p
  refine ⟨hstate, ?_, has⟩
  rcases hended with heq | ⟨i, -, hother, hsame⟩
  · rw [heq]
  by_cases hp : p = i
  · rw [hp]
    exact hsame.2.1
  · rw [hother p hp]

lemma Move.proc {o : Outcome} (hmove : Move c k k' o) : ProcMove c k k' o := by
  cases hmove with
  | quiet _ _ hprocs hmm =>
    refine .kept (.inl rfl) (fun p => ?_) (.of_eq hmm)
    obtain ⟨hstate, hpid, -, has⟩ := hprocs p
    exact ⟨by rw [hstate], hpid, has⟩
  | task slot _ _ _ _ hprocs hmm =>
    exact .kept (.inr ⟨slot, rfl⟩) (fun p => .of_eq (congrFun hprocs p)) (.of_eq hmm)
  | switched cur next _ _ _ _ _ hprocs hmm =>
    refine .kept (.inl rfl) (fun p => .of_eq (congrFun hprocs p)) ?_
    rw [hmm]
    exact mmKept_switchedMm k cur next
  | retired cur next _ _ _ _ _ hended hmm =>
    refine .kept (.inl rfl) (entryKept_of_ended hended) ?_
    rw [hmm]
    exact mmKept_switchedMm k cur next
  | parked cur _ _ _ _ _ hended hmm =>
    exact .kept (.inl rfl) (entryKept_of_ended hended) (.of_eq hmm)
  | failed _ hprocs hmm => exact .failed hprocs hmm
  | process slot pcb as chunk _ _ _ hbuild _ _ hpcb hprocs =>
    exact .process slot pcb as chunk hbuild ⟨hpcb.2.1, hpcb.2.2.2⟩ hprocs
  | reaped pid i hexec hfound hzombie _ _ hprocs hpcb hmm =>
    exact .reaped pid i hexec hfound hzombie hprocs hpcb hmm

end

structure SpacesKept (w : World) : Prop where
  spaces : SpaceInv w.kernel
  pids : 0 < w.kernel.nextPid
  threads : ∀ i < maxTasks, w.owner i = none → (w.kernel.sched.tasks i).as = 0

lemma SpacesKept.step {c : Statics} {w : World} (h : SpacesKept w) {e : Event}
  (hadmits : kernelAdmits w.kernel e) : SpacesKept (w.note (kernelReact c w.kernel e)) := by
  have hmove := kernelReact_move (c := c) (by have := h.pids; omega) e hadmits
  refine ⟨by rw [note_kernel]; exact h.spaces.move hmove, ?_, ?_⟩
  · rw [note_kernel]
    exact h.pids.trans_le (nextPid_le c w.kernel e)
  rcases hreact : kernelReact c w.kernel e with ⟨k', o⟩
  rw [hreact] at hmove
  have hsame : SameAs w.kernel.sched k'.sched → ∀ i < maxTasks, w.owner i = none →
      (k'.sched.tasks i).as = 0 := fun has i hi howner => (has i).trans (h.threads i hi howner)
  cases hmove with
  | quiet _ has => exact hsame has
  | failed hsched => exact hsame (by rw [hsched]; exact fun _ => rfl)
  | switched _ _ _ _ _ _ has => exact hsame has
  | retired _ _ _ _ _ _ has => exact hsame has
  | parked _ _ _ _ _ has => exact hsame has
  | reaped _ _ _ _ _ _ has => exact hsame has
  | task slot _ _ _ has =>
    intro i hi howner
    change (k'.sched.tasks i).as = 0
    rw [has]
    split_ifs with hslot
    · rfl
    refine h.threads i hi ?_
    simpa [World.note, hslot] using howner
  | process slot pcb as chunk _ _ _ _ _ has =>
    intro i hi howner
    by_cases hslot : i = slot
    · rw [hslot] at howner
      simp [World.note] at howner
    change (k'.sched.tasks i).as = 0
    rw [has, if_neg hslot]
    refine h.threads i hi ?_
    simpa [World.note, hslot] using howner

lemma spacesKept_of_reachable {c : Statics} {w : World} (hw : (machine c).Reachable w) :
  SpacesKept w := by
  refine hw.invariant SpacesKept ?_ fun w e h hadmits => h.step hadmits
  rintro w ⟨hboot, _, _, _⟩
  refine ⟨SpaceInv.boot hboot, by rw [hboot.nextPid]; decide, fun i hi _ => ?_⟩
  obtain ⟨before, mainName, hsched⟩ := hboot.sched
  rw [hsched]
  simp only [schedInit]
  split_ifs <;> rfl

/-- Whenever a task executes, the address space that is loaded is the task's own,
none for a task without a process, and it has not been destroyed. -/
theorem running_task_space_loaded {c : Statics} {w : World} (hw : (machine c).Reachable w)
  {cur : Nat} (hcur : w.kernel.sched.current = some cur)
  (hrun : (w.kernel.sched.tasks cur).state = .running) :
  w.kernel.mm.asActive = (w.kernel.sched.tasks cur).as ∧
    (w.owner cur = none → w.kernel.mm.asActive = 0) ∧
    (w.kernel.mm.asActive ≠ 0 →
      (w.kernel.mm.spaces w.kernel.mm.asActive).self = w.kernel.mm.asActive) := by
  obtain ⟨hspaces, _, hthreads⟩ := spacesKept_of_reachable hw
  have hactive := hspaces.active cur hcur
  have hlt := hspaces.runner.lt hcur
  refine ⟨hactive, fun howner => hactive.trans (hthreads cur hlt howner), fun hne => ?_⟩
  rw [hactive] at hne ⊢
  obtain ⟨p, halive, has, _⟩ := hspaces.backed cur hlt (.inr hrun) hne
  rw [← has]
  exact (hspaces.made p (by rw [halive]; simp)).2.2

theorem running_task_space_loaded_first : ∃ w, (machine sampleStatics).Reachable w ∧
  w.owner 1 = some ⟨0, 1⟩ ∧ w.kernel.sched.current = some 1 ∧
  w.kernel.mm.asActive = heapStart ∧ (w.kernel.mm.spaces heapStart).self = heapStart := by
  have hw : (machine sampleStatics).Reachable
      ((machine sampleStatics).step (firstWorld firstSpace.2) (.yield ⟨0, 0, 0⟩)) :=
    ((Machine.reachable_of_init sampleWorld_init).run run_firstSpawn).step ⟨0, rfl, rfl⟩
  obtain ⟨hactive, _, hself⟩ := running_task_space_loaded hw (by rfl : _ = some 1) rfl
  have heq : _ = heapStart := hactive
  rw [heq] at hself
  exact ⟨_, hw, rfl, rfl, heq, hself (by decide)⟩

end Aeos.Proc
