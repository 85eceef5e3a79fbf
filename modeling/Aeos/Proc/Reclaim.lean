/-
# What reaping gives back

`as_destroy` frees the block at `user_region`, and nothing ever sets `user_region`.
-/

import Aeos.Proc.Spaces

namespace Aeos.Proc

open Lib Mem Sched List Option Finset

structure MemInv (c : Statics) (p₀ : Pmm) (k : Kernel) : Prop where
  space : SpaceInv k
  wf : k.mm.pmm.Wf
  empty : k.mm.mem c.pgd (tableIndex 3 userVaBase) = 0
  kernel : ∀ f < totalFrames, p₀.bitmap f = false → c.pgd ≠ frameToPhys f
  base : ∀ f, p₀.bitmap f = true → k.mm.pmm.bitmap f = true
  tables : ∀ p, (k.procs p).state ≠ .none → ∃ frames, Owns k.mm (k.procs p).as frames ∧
    ∀ f ∈ frames, f < totalFrames ∧ k.mm.pmm.bitmap f = true ∧ p₀.bitmap f = false
  apart : ∀ p q, (k.procs p).state ≠ .none → (k.procs q).state ≠ .none → p ≠ q →
    ∀ a ∈ (k.mm.spaces (k.procs p).as).tables, a ∉ (k.mm.spaces (k.procs q).as).tables

variable {c : Statics} {p₀ : Pmm} {k : Kernel}

section
variable (h : MemInv c p₀ k)
include h

lemma MemInv.free_at_boot {f : Nat} (hfree : k.mm.pmm.bitmap f = false) : p₀.bitmap f = false := by
  by_contra hnot
  rw [h.base f (by simpa using hnot)] at hfree
  cases hfree

lemma MemInv.safe : TablesSafe c k.mm :=
  ⟨h.empty, fun f hf hfree => h.kernel f hf (h.free_at_boot hfree)⟩

lemma MemInv.notMem_tables {p f : Nat} (hp : (k.procs p).state ≠ .none) (hf : f < totalFrames)
    (hfree : k.mm.pmm.bitmap f = false) : frameToPhys f ∉ (k.mm.spaces (k.procs p).as).tables := by
  intro hmem
  obtain ⟨frames, hown, hframes⟩ := h.tables p hp
  have hin := (hown.mem_tables (fun x hx => (hframes x hx).1) hf).mp hmem
  rw [(hframes f hin).2.1] at hfree
  cases hfree

end

def Leaked (p₀ : Pmm) (k : Kernel) : Prop :=
  ∃ f < totalFrames, p₀.bitmap f = false ∧ k.mm.pmm.bitmap f = true ∧
    ∀ p, (k.procs p).state ≠ .none → frameToPhys f ∉ (k.mm.spaces (k.procs p).as).tables

lemma pmm_ne_of_leaked (hleak : Leaked p₀ k) : k.mm.pmm ≠ p₀ := by
  obtain ⟨f, _, hfree, hused, _⟩ := hleak
  intro heq
  rw [heq, hfree] at hused
  cases hused

section
variable {c : Statics} {p₀ : Pmm} {k k' : Kernel}

def ProcsKept (k k' : Kernel) : Prop :=
  ∀ p, (k'.procs p).state ≠ .none →
    (k.procs p).state ≠ .none ∧ (k'.procs p).as = (k.procs p).as ∧
      k'.mm.spaces (k.procs p).as = k.mm.spaces (k.procs p).as

lemma MemInv.of_kept (h : MemInv c p₀ k) (hspace : SpaceInv k') (hpmm : k'.mm.pmm = k.mm.pmm)
  (hmem : UsedKept k.mm k'.mm) (hprocs : ProcsKept k k') : MemInv c p₀ k' := by
  refine ⟨hspace, by rw [hpmm]; exact h.wf, ?_, h.kernel, by rw [hpmm]; exact h.base, ?_, ?_⟩
  · rw [hmem c.pgd h.safe.used]
    exact h.empty
  · intro p hp
    obtain ⟨hp₀, has, hspaces⟩ := hprocs p hp
    obtain ⟨frames, hown, hframes⟩ := h.tables p hp₀
    rw [has, hpmm]
    exact ⟨frames, hown.congr hspaces, hframes⟩
  intro p q hp hq hne
  obtain ⟨hp₀, hasp, hspacep⟩ := hprocs p hp
  obtain ⟨hq₀, hasq, hspaceq⟩ := hprocs q hq
  rw [hasp, hasq, hspacep, hspaceq]
  exact h.apart p q hp₀ hq₀ hne

lemma Leaked.of_kept (h : Leaked p₀ k) (hpmm : k'.mm.pmm = k.mm.pmm) (hprocs : ProcsKept k k') :
  Leaked p₀ k' := by
  obtain ⟨f, hf, hfree, hused, hnot⟩ := h
  refine ⟨f, hf, hfree, by rwa [hpmm], fun p hp => ?_⟩
  obtain ⟨hp₀, has, hspace⟩ := hprocs p hp
  rw [has, hspace]
  exact hnot p hp₀

lemma procsKept_of_entries (hprocs : ∀ p, EntryKept (k.procs p) (k'.procs p))
  (hmm : MmKept k.mm k'.mm) : ProcsKept k k' := by
  intro p hp
  obtain ⟨hstate, -, has⟩ := hprocs p
  exact ⟨mt hstate.mpr hp, has, by rw [hmm.spaces]⟩

structure Creation (k k' : Kernel) (pcb as g : Nat) (frames : List Nat) : Prop where
  gain : Gained k.mm k'.mm as g frames
  other : ∀ x, x ≠ as → k'.mm.spaces x = k.mm.spaces x
  record : as = k.mm.heap.ptr
  entry : (k'.procs pcb).as = as
  procs : ∀ i, i ≠ pcb → k'.procs i = k.procs i

namespace Creation

variable {pcb as g : Nat} {frames : List Nat} {f : Nat} (h : Creation k k' pcb as g frames)
include h

lemma still_used (hf : k.mm.pmm.bitmap f = true) : k'.mm.pmm.bitmap f = true :=
  (h.gain.took.holds.bitmap f).mpr (.inl hf)

lemma table_free (hf : f ∈ frames) : f < totalFrames ∧ k.mm.pmm.bitmap f = false :=
  h.gain.took.holds.free f (h.gain.took.sub (List.mem_toFinset.mpr hf))

lemma chunk_free (hf : f ∈ chunkFrames g) : f < totalFrames ∧ k.mm.pmm.bitmap f = false :=
  h.gain.took.holds.free f (Finset.mem_union_right _ hf)

lemma chunk_used (hf : f ∈ chunkFrames g) : k'.mm.pmm.bitmap f = true :=
  h.gain.took.holds.used (Finset.mem_union_right _ hf)

lemma mem_tables (hf : f < totalFrames) : frameToPhys f ∈ (k'.mm.spaces as).tables ↔ f ∈ frames :=
  h.gain.took.owns.mem_tables (fun _ hx => (h.table_free hx).1) hf

variable (hinv : MemInv c p₀ k)
include hinv

lemma old {p : Nat} (hne : p ≠ pcb) (hp : (k'.procs p).state ≠ .none) :
  (k.procs p).state ≠ .none ∧ k'.procs p = k.procs p ∧
    k'.mm.spaces (k.procs p).as = k.mm.spaces (k.procs p).as := by
  rw [h.procs p hne] at hp
  refine ⟨hp, h.procs p hne, h.other _ ?_⟩
  rw [h.record]
  exact (hinv.space.made p hp).2.1.ne

lemma chunk_notMem_tables (hf : f ∈ chunkFrames g) {p : Nat} (hp : (k'.procs p).state ≠ .none) :
  frameToPhys f ∉ (k'.mm.spaces (k'.procs p).as).tables := by
  obtain ⟨hlt, hfree⟩ := h.chunk_free hf
  intro hmem
  by_cases hpp : p = pcb
  · rw [hpp, h.entry, h.mem_tables hlt] at hmem
    exact Finset.disjoint_left.mp h.gain.apart (List.mem_toFinset.mpr hmem) hf
  obtain ⟨hp₀, heq, hspace⟩ := h.old hinv hpp hp
  rw [heq, hspace] at hmem
  exact hinv.notMem_tables hp₀ hlt hfree hmem

end Creation

section
variable (h : MemInv c p₀ k)
include h

lemma MemInv.process (hspace : SpaceInv k') {pcb as g : Nat} {frames : List Nat}
    (hnew : Creation k k' pcb as g frames) : MemInv c p₀ k' ∧ Leaked p₀ k' := by
  have htook := hnew.gain.took
  refine ⟨⟨hspace, htook.holds.wf h.wf, ?_, h.kernel, fun f hf => hnew.still_used (h.base f hf), ?_,
    ?_⟩, ?_⟩
  · rw [htook.usedKept c.pgd h.safe.used]
    exact h.empty
  · intro p hp
    by_cases hpp : p = pcb
    · rw [hpp, hnew.entry]
      refine ⟨frames, htook.owns, fun f hf => ?_⟩
      obtain ⟨hlt, hfree⟩ := hnew.table_free hf
      exact ⟨hlt, htook.holds.used (htook.sub (List.mem_toFinset.mpr hf)), h.free_at_boot hfree⟩
    obtain ⟨hp₀, heq, hsp⟩ := hnew.old h hpp hp
    obtain ⟨L, hown, hL⟩ := h.tables p hp₀
    rw [heq]
    refine ⟨L, hown.congr hsp, fun f hf => ?_⟩
    obtain ⟨hlt, hused, hboot⟩ := hL f hf
    exact ⟨hlt, hnew.still_used hused, hboot⟩
  · have hcross : ∀ p, p ≠ pcb → (k'.procs p).state ≠ .none →
        ∀ a ∈ (k'.mm.spaces as).tables, a ∉ (k'.mm.spaces (k'.procs p).as).tables := by
      intro p hpp hp a ha
      obtain ⟨hp₀, heq, hsp⟩ := hnew.old h hpp hp
      rw [htook.owns.tables, List.mem_map] at ha
      obtain ⟨f, hf, rfl⟩ := ha
      obtain ⟨hlt, hfree⟩ := hnew.table_free hf
      rw [heq, hsp]
      exact h.notMem_tables hp₀ hlt hfree
    intro p q hp hq hne a ha hmem
    by_cases hpp : p = pcb <;> by_cases hqp : q = pcb
    · exact hne (hpp.trans hqp.symm)
    · rw [hpp, hnew.entry] at ha
      exact hcross q hqp hq a ha hmem
    · rw [hqp, hnew.entry] at hmem
      exact hcross p hpp hp a hmem ha
    obtain ⟨hp₀, heqp, hspp⟩ := hnew.old h hpp hp
    obtain ⟨hq₀, heqq, hspq⟩ := hnew.old h hqp hq
    rw [heqp, hspp] at ha
    rw [heqq, hspq] at hmem
    exact h.apart p q hp₀ hq₀ hne a ha hmem
  have hg : g ∈ chunkFrames g := mem_Ico.mpr ⟨le_rfl, Nat.lt_add_of_pos_right (by decide)⟩
  obtain ⟨hlt, hfree⟩ := hnew.chunk_free hg
  refine ⟨g, hlt, h.free_at_boot hfree, hnew.chunk_used hg, fun p hp => ?_⟩
  exact hnew.chunk_notMem_tables h hg hp

lemma MemInv.reaped (hspace : SpaceInv k') {i : Nat} (hlive : (k.procs i).state ≠ .none)
    (hprocs : ∀ j, j ≠ i → k'.procs j = k.procs j) (hpcb : (k'.procs i).state = .none)
    (hmm : k'.mm = asDestroy k.mm (k.procs i).as) (hactive : k.mm.asActive ≠ (k.procs i).as) :
  MemInv c p₀ k' ∧ (Leaked p₀ k → Leaked p₀ k') := by
  obtain ⟨frames, hown, hframes⟩ := h.tables i hlive
  obtain ⟨hpmm, hmem⟩ := asDestroy_eq hown.nonzero hown.self hown.region
  have hother := (outside_asDestroy hactive).other
  rw [← hmm] at hpmm hmem hother
  have hbits : ∀ f, k'.mm.pmm.bitmap f = true ↔ k.mm.pmm.bitmap f = true ∧ f ∉ frames := by
    intro f
    rw [hpmm, hown.tables]
    exact foldl_freePage_bitmap (fun g hg => (hframes g hg).1) k.mm.pmm f
  have hold : ∀ p, (k'.procs p).state ≠ .none → p ≠ i ∧ (k.procs p).state ≠ .none ∧
      k'.procs p = k.procs p ∧ k'.mm.spaces (k.procs p).as = k.mm.spaces (k.procs p).as := by
    intro p hp
    obtain ⟨hpi, hp₀, heq⟩ := used_of_cleared hprocs hpcb hp
    exact ⟨hpi, hp₀, heq, hother _ fun has => hpi (h.space.distinct p i hp₀ hlive has)⟩
  -- The frames freed are not those of another process.
  have hothers : ∀ p, p ≠ i → (k.procs p).state ≠ .none → ∀ f < totalFrames,
      frameToPhys f ∈ (k.mm.spaces (k.procs p).as).tables → f ∉ frames := by
    intro p hpi hp f hf hmemp hin
    refine h.apart p i hp hlive hpi _ hmemp ?_
    exact (hown.mem_tables (fun g hg => (hframes g hg).1) hf).mpr hin
  refine ⟨⟨hspace, ?_, by rw [hmem]; exact h.empty, h.kernel, ?_, ?_, ?_⟩, ?_⟩
  · rw [hpmm]
    exact h.wf.foldl_freePage _
  · intro f hf
    refine (hbits f).mpr ⟨h.base f hf, fun hin => ?_⟩
    rw [(hframes f hin).2.2] at hf
    cases hf
  · intro p hp
    obtain ⟨hpi, hp₀, heq, hsp⟩ := hold p hp
    obtain ⟨L, hownp, hL⟩ := h.tables p hp₀
    rw [heq]
    refine ⟨L, hownp.congr hsp, fun f hf => ⟨(hL f hf).1, (hbits f).mpr ⟨(hL f hf).2.1, ?_⟩,
      (hL f hf).2.2⟩⟩
    exact hothers p hpi hp₀ f (hL f hf).1
      ((hownp.mem_tables (fun g hg => (hL g hg).1) (hL f hf).1).mpr hf)
  · intro p q hp hq hne
    obtain ⟨_, hp₀, heqp, hspp⟩ := hold p hp
    obtain ⟨_, hq₀, heqq, hspq⟩ := hold q hq
    rw [heqp, heqq, hspp, hspq]
    exact h.apart p q hp₀ hq₀ hne
  rintro ⟨f, hf, hfree, hused, hnot⟩
  refine ⟨f, hf, hfree, (hbits f).mpr ⟨hused, fun hin => ?_⟩, fun p hp => ?_⟩
  · exact hnot i hlive ((hown.mem_tables (fun g hg => (hframes g hg).1) hf).mpr hin)
  obtain ⟨_, hp₀, heq, hsp⟩ := hold p hp
  rw [heq, hsp]
  exact hnot p hp₀

lemma MemInv.failed (hmm : buildSpace c.toKernelTables k.mm = (none, k'.mm) ∨
    ∃ as chunk mm, buildSpace c.toKernelTables k.mm = (some (as, chunk), mm) ∧
      k'.mm = releaseSpace mm as chunk) : k'.mm.pmm = k.mm.pmm ∧ UsedKept k.mm k'.mm := by
  have hspec := buildSpace_spec c.toKernelTables h.space.heap_pos h.space.heap_end h.wf h.empty
    h.safe.used
  rcases hmm with hbuild | ⟨as, chunk, mm, hbuild, hmm⟩
  · rw [hbuild] at hspec
    rcases hspec with ⟨_, _, hpmm, hmem⟩ | ⟨_, g, frames, hsome, _⟩
    · exact ⟨hpmm, hmem⟩
    · cases hsome
  rw [hbuild] at hspec
  rcases hspec with ⟨_, hnone, _⟩ | ⟨_, g, frames, hsome, htook, hapart⟩
  · cases hnone
  obtain ⟨rfl, rfl⟩ := Prod.mk.inj (some.inj hsome)
  rw [hmm]
  refine ⟨releaseSpace_pmm htook.owns htook.holds hapart, fun x hx => ?_⟩
  exact (congrFun (releaseSpace_mem htook.owns _) x).trans (htook.usedKept x hx)

lemma MemInv.creation {pcb as chunk : Nat}
    (hbuild : buildSpace c.toKernelTables k.mm = (some (as, chunk), k'.mm))
    (hpcb : (k'.procs pcb).as = as) (hprocs : ∀ i, i ≠ pcb → k'.procs i = k.procs i) :
  ∃ g frames, chunk = frameToPhys g ∧ Creation k k' pcb as g frames := by
  obtain ⟨hconstructs, hnew⟩ := buildSpace_constructs c.toKernelTables h.space.heap_pos
    h.space.heap_end h.space.loaded.ne hbuild
  obtain ⟨has, -, -⟩ := hnew as chunk rfl
  have hspec := buildSpace_spec c.toKernelTables h.space.heap_pos h.space.heap_end h.wf
    h.empty h.safe.used
  rw [hbuild] at hspec
  rcases hspec with ⟨_, hnone, _⟩ | ⟨_, g, frames, hsome, htook, hapart⟩
  · cases hnone
  obtain ⟨-, hchunk⟩ := Prod.mk.inj (some.inj hsome)
  rw [← has] at htook
  exact ⟨g, frames, hchunk, ⟨htook, hapart⟩, fun x hx => hconstructs.other x (has ▸ hx), has,
    hpcb, hprocs⟩

end

def PageEffect (p₀ : Pmm) (k k' : Kernel) : Outcome → Prop
  | .process _ _ _ => Leaked p₀ k'
  | .reaped _ => ∃ p, (k.procs p).state ≠ .none
  | _ => k'.mm.pmm = k.mm.pmm ∧ ∀ p, (k'.procs p).state = .none ↔ (k.procs p).state = .none

/-- Step lemma: the accounting is kept, and so is a leak. -/
lemma MemInv.move (h : MemInv c p₀ k) {o : Outcome} (hmove : Move c k k' o) :
  MemInv c p₀ k' ∧ (Leaked p₀ k → Leaked p₀ k') ∧ PageEffect p₀ k k' o := by
  have hspace := h.space.move hmove
  cases hmove.proc with
  | kept ho hprocs hmm =>
    have hkept := procsKept_of_entries hprocs hmm
    have heffect : k'.mm.pmm = k.mm.pmm ∧
        ∀ p, (k'.procs p).state = .none ↔ (k.procs p).state = .none :=
      ⟨hmm.pmm, fun p => (hprocs p).1⟩
    refine ⟨h.of_kept hspace hmm.pmm (fun x _ => by rw [hmm.mem]) hkept,
      fun hleak => hleak.of_kept hmm.pmm hkept, ?_⟩
    rcases ho with rfl | ⟨slot, rfl⟩ <;> exact heffect
  | failed hprocs hmm =>
    obtain ⟨hpmm, hmem⟩ := h.failed hmm
    have hconstructs := h.space.constructs_of_failed hmm
    have hkept : ProcsKept k k' := by
      intro p hp
      rw [hprocs] at hp ⊢
      exact ⟨hp, rfl, hconstructs.other _ (h.space.made p hp).2.1.ne⟩
    exact ⟨h.of_kept hspace hpmm hmem hkept, fun hleak => hleak.of_kept hpmm hkept, hpmm,
      fun p => by rw [hprocs]⟩
  | process slot pcb as chunk hbuild hpcb hprocs =>
    obtain ⟨g, frames, -, hnew⟩ := h.creation hbuild hpcb.2 hprocs
    obtain ⟨hinv, hleak⟩ := h.process hspace hnew
    exact ⟨hinv, fun _ => hleak, hleak⟩
  | reaped pid i hexec _ hzombie hprocs hpcb hmm =>
    have hlive : (k.procs i).state ≠ .none := by rw [hzombie]; simp
    obtain ⟨hinv, hleak⟩ := h.reaped hspace hlive hprocs hpcb hmm
      (h.space.active_ne_zombie hexec hzombie)
    exact ⟨hinv, hleak, i, hlive⟩

end

def Creates (k : Kernel) : Event → Prop
  | .spawnImage name image size entryOff => CanSpawn k name image size entryOff
  | _ => False

structure Accounted (c : Statics) (p₀ : Pmm) (w : World) : Prop where
  mem : MemInv c p₀ w.kernel
  pids : 0 < w.kernel.nextPid

def Clean (p₀ : Pmm) (w : World) : Prop :=
  (∀ p, (w.kernel.procs p).state = .none) ∧ w.kernel.mm.pmm = p₀

section
variable {c : Statics} {p₀ : Pmm} {w : World}

lemma accounted_boot (hboot : Boot c w.kernel) : Accounted c w.kernel.mm.pmm w := by
  have hspace := SpaceInv.boot hboot
  have hsafe := hboot.tablesSafe
  refine ⟨⟨hspace, hboot.pages, hsafe.empty, hsafe.used, fun _ hf => hf, ?_, ?_⟩,
    by rw [hboot.nextPid]; decide⟩
  · exact fun p hp => absurd (hboot.procs p) hp
  · exact fun p q hp => absurd (hboot.procs p) hp

section
variable (h : Accounted c p₀ w)
include h

lemma process_iff_creates (e : Event) :
  (∃ slot pcb pid, (kernelReact c w.kernel e).2 = .process slot pcb pid) ↔ Creates w.kernel e := by
  by_cases he : e.creates = false
  · refine iff_of_false (fun ⟨slot, pcb, pid, heq⟩ => ?_) ?_
    · exact outcome_of_not_creates c w.kernel he slot pcb pid heq
    cases e with
    | spawnImage => cases he
    | _ => exact id
  cases e with
  | spawnImage name image size entryOff =>
    simp only [kernelReact, Creates]
    rcases procSpawnImage_spec name image size entryOff h.mem.space.heap_pos
        h.mem.space.heap_end h.mem.wf h.mem.safe with ⟨hcannot, hpid, _⟩ | ⟨hcan, hpid, _⟩
    · refine iff_of_false ?_ hcannot
      rw [hpid, imageOutcome_failed]
      rintro ⟨slot, pcb, pid, heq⟩
      cases heq
    refine iff_of_true ?_ hcan
    obtain ⟨slot, hslot⟩ := ne_none_iff_exists'.mp hcan.slot
    obtain ⟨pcb, hpcb⟩ := ne_none_iff_exists'.mp hcan.proc
    have hne : w.kernel.nextPid ≠ -1 := by
      have := h.pids
      omega
    exact ⟨slot, pcb, w.kernel.nextPid, by simp [imageOutcome, hslot, hpcb, hpid, hne]⟩
  | _ => exact absurd rfl he

variable {e : Event}

lemma Accounted.step (hadmits : kernelAdmits w.kernel e) :
  Accounted c p₀ (w.note (kernelReact c w.kernel e)) := by
  have hmove := kernelReact_move (c := c) (by have := h.pids; omega) e hadmits
  refine ⟨?_, ?_⟩
  · rw [note_kernel]
    exact (h.mem.move hmove).1
  rw [note_kernel]
  exact h.pids.trans_le (nextPid_le c w.kernel e)

lemma leaked_step (hadmits : kernelAdmits w.kernel e) (hleak : Leaked p₀ w.kernel) :
  Leaked p₀ (w.note (kernelReact c w.kernel e)).kernel := by
  have hmove := kernelReact_move (c := c) (by have := h.pids; omega) e hadmits
  rw [note_kernel]
  exact (h.mem.move hmove).2.1 hleak

lemma clean_step (hclean : Clean p₀ w) (hadmits : kernelAdmits w.kernel e) :
  (Creates w.kernel e ∧ Leaked p₀ (w.note (kernelReact c w.kernel e)).kernel) ∨
    (¬ Creates w.kernel e ∧ Clean p₀ (w.note (kernelReact c w.kernel e))) := by
  have hmove := kernelReact_move (c := c) (by have := h.pids; omega) e hadmits
  obtain ⟨_, _, houtcome⟩ := h.mem.move hmove
  have hiff := process_iff_creates h e
  simp only [Clean, note_kernel]
  cases ho : (kernelReact c w.kernel e).2 with
  | process slot pcb pid =>
    rw [ho] at houtcome hiff
    exact .inl ⟨hiff.mp ⟨slot, pcb, pid, rfl⟩, houtcome⟩
  | reaped pid =>
    rw [ho] at houtcome
    obtain ⟨p, hp⟩ := houtcome
    exact absurd (hclean.1 p) hp
  | quiet =>
    rw [ho] at houtcome hiff
    exact .inr ⟨fun hc => by simpa using hiff.mpr hc,
      fun p => (houtcome.2 p).mpr (hclean.1 p), houtcome.1.trans hclean.2⟩
  | task slot =>
    rw [ho] at houtcome hiff
    exact .inr ⟨fun hc => by simpa using hiff.mpr hc,
      fun p => (houtcome.2 p).mpr (hclean.1 p), houtcome.1.trans hclean.2⟩

end

/-- Run lemma: a run from a clean world stays clean, or creates a process and
leaks. -/
lemma run_clean_or_leaked {t : World} {es : List Event} (hrun : (machine c).Run w es t)
  (h : Accounted c p₀ w) (hclean : Clean p₀ w) :
  (((machine c).restrict fun w e => ¬ Creates w.kernel e).Run w es t ∧ Clean p₀ t) ∨
    (¬ ((machine c).restrict fun w e => ¬ Creates w.kernel e).Run w es t ∧ Leaked p₀ t.kernel) := by
  induction hrun with
  | nil w => exact .inl ⟨.nil w, hclean⟩
  | @cons w t e es hadmits hrest ih =>
    rcases clean_step h hclean hadmits with ⟨hcreates, hleak⟩ | ⟨hnot, hclean'⟩
    · refine .inr ⟨?_, ?_⟩
      · rintro (_ | ⟨⟨_, hguard⟩, _⟩)
        exact hguard hcreates
      have hboth := hrest.invariant (fun w => Accounted c p₀ w ∧ Leaked p₀ w.kernel)
          (fun w e hw henabled => ⟨hw.1.step henabled, leaked_step hw.1 henabled hw.2⟩)
          ⟨h.step hadmits, hleak⟩
      exact hboth.2
    rcases ih (h.step hadmits) hclean' with ⟨hrun', ht⟩ | ⟨hno, ht⟩
    · exact .inl ⟨.cons ⟨hadmits, hnot⟩ hrun', ht⟩
    refine .inr ⟨?_, ht⟩
    rintro (_ | ⟨_, hrun'⟩)
    exact hno hrun'

end

/-- The record of a new address space lies apart from the frames that were free at boot. Where
the heap has grown into them, tables and images overwrite records. -/
def RecordApart (p₀ : Pmm) (w : World) : Event → Prop
  | .spawnImage .. => ∀ f < totalFrames, p₀.bitmap f = false →
    w.kernel.mm.heap.ptr + addrSpaceSize ≤ frameToPhys f ∨
      frameToPhys f + pageSize ≤ w.kernel.mm.heap.ptr
  | _ => True

/-- In every run after boot whose records lie apart from the frames, in every state reached, the
page allocator is what it was at boot if and only if no event of the run created a process. -/
theorem pages_restored_iff_no_process {c : Statics} {w t : World} {es : List Event}
    (hinit : (machine c).init w)
    (hrun : ((machine c).restrict (RecordApart w.kernel.mm.pmm)).Run w es t) :
    t.kernel.mm.pmm = w.kernel.mm.pmm ↔
      ((machine c).restrict fun w e => ¬ Creates w.kernel e).Run w es t := by
  obtain ⟨hboot, _, _, _⟩ := hinit
  have hclean : Clean w.kernel.mm.pmm w := ⟨hboot.procs, rfl⟩
  rcases run_clean_or_leaked hrun.of_restrict (accounted_boot hboot) hclean with
    ⟨hguarded, ht⟩ | ⟨hno, hleak⟩
  · exact iff_of_true ht.2 hguarded
  · exact iff_of_false (pmm_ne_of_leaked hleak) hno

def fifteenTasks : List Event := List.replicate 15 (.spawn [] 1 1 256)

lemma run_fifteenTasks : (machine sampleStatics).Run sampleWorld fifteenTasks
    (fifteenTasks.foldl (machine sampleStatics).step sampleWorld) :=
  Machine.run_of_admitsAll _ _ (by decide +kernel)

/-- With all task slots taken, a spawn takes its pages and gives them back. -/
theorem pages_restored_iff_no_process_refused :
    ((fifteenTasks ++ [firstSpawn]).foldl (machine sampleStatics).step sampleWorld).kernel.mm.pmm =
      pmmInit := by
  have hlast : (machine sampleStatics).enabled
      (fifteenTasks.foldl (machine sampleStatics).step sampleWorld) firstSpawn := by decide +kernel
  have hfull : slotAlloc (fifteenTasks.foldl (machine sampleStatics).step
      sampleWorld).kernel.sched = none := by decide +kernel
  have hheap : (fifteenTasks.foldl (machine sampleStatics).step sampleWorld).kernel.mm.heap.ptr +
      addrSpaceSize ≤ 0x41280000 := by decide +kernel
  have hspawns : ∀ e ∈ fifteenTasks, e = .spawn [] 1 1 256 := fun e he => eq_of_mem_replicate he
  have hrun := run_fifteenTasks
  rw [foldl_append]
  generalize fifteenTasks.foldl (machine sampleStatics).step sampleWorld = full at *
  have hapart : RecordApart pmmInit full firstSpawn := by
    intro f hf hfree
    have hlow : ¬ f < reserveEndFrame := by
      intro hlt
      rw [(pmmInit_bitmap f hf).mpr hlt] at hfree
      cases hfree
    have hreserve : reserveEndFrame = 4736 := by decide
    refine .inl (hheap.trans ?_)
    simp only [frameToPhys, pageSize, ramStart]
    omega
  have hwhole : ((machine sampleStatics).restrict (RecordApart pmmInit)).Run sampleWorld
      (fifteenTasks ++ [firstSpawn]) ((machine sampleStatics).step full firstSpawn) := by
    refine (hrun.restrict fun s e he => ?_).append (.cons ⟨hlast, hapart⟩ (.nil _))
    rw [hspawns e he]
    trivial
  refine (pages_restored_iff_no_process sampleWorld_init hwhole).mpr ?_
  refine (hrun.restrict fun s e he => ?_).append (.cons ⟨hlast, fun h => h.slot hfull⟩ (.nil _))
  rw [hspawns e he]
  exact id

lemma canSpawn_sampleKernel : Creates sampleKernel firstSpawn where
  name := by simp
  args := by decide
  proc := by
    have hfree : freeProc sampleKernel = some 0 := rfl
    simp [hfree]
  heap := by decide
  pages := room_pmmInit
  slot := by
    have hslot : slotAlloc sampleKernel.sched = some 1 := rfl
    simp [hslot]

/-- A process is created, waited for, exits and is reaped; its chunk is lost. -/
theorem chunk_lost_after_reaping : ∃ t,
  (machine sampleStatics).Run sampleWorld
    [firstSpawn, .wait 1 ⟨0, 0, 0⟩, .procExit 0 0, .wait 1 ⟨0, 0, 0⟩] t ∧
  t.spawned = [1] ∧ t.reaped = [1] ∧ t.kernel.mm.pmm ≠ sampleWorld.kernel.mm.pmm := by
  have hrun := run_after_first [.wait 1 ⟨0, 0, 0⟩, .procExit 0 0, .wait 1 ⟨0, 0, 0⟩]
    (by decide +kernel)
  refine ⟨_, hrun, by decide +kernel, by decide +kernel, ?_⟩
  rcases run_clean_or_leaked hrun (accounted_boot boot_sampleKernel)
    ⟨fun _ => rfl, rfl⟩ with ⟨_ | ⟨⟨_, hguard⟩, _⟩, _⟩ | ⟨_, hleak⟩
  · exact absurd canSpawn_sampleKernel hguard
  · exact pmm_ne_of_leaked hleak

end Aeos.Proc
