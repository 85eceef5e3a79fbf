/-
# Where files lie

The extents of the files in the directory share no sector with each other or with the free list,
and all of them lie below the bump pointer. Each step of `afs_write`, `afs_delete` and
`afs_mount` keeps it.
-/

import Aeos.Afs.Disk

namespace Aeos.Afs

open Lib List Option Function

/-! ## Extents of entries -/

def Dirent.Live (e : Dirent) : Prop := e.startLba ≠ 0

instance (e : Dirent) : Decidable e.Live := inferInstanceAs (Decidable (e.startLba ≠ 0))

def Dirent.extent (e : Dirent) : Extent := ⟨e.startLba, (e.size + (sectSize - 1)) / sectSize⟩

def maxSize : Nat := 1024 * 1024

lemma nlbasOf_eq {size : Nat} (hsize : size ≤ maxSize) :
  nlbasOf size = (size + (sectSize - 1)) / sectSize := by
  rw [nlbasOf, u32_of_lt]
  simp only [maxSize, sectSize] at *
  omega

lemma size_setSize (e : Dirent) {len : Nat} (hlen : len ≤ maxSize) :
  (e.setSize len).size = len := by
  refine u32_of_lt ?_
  simp only [maxSize] at hlen
  omega

lemma live_setStart (e : Dirent) {lba : Nat} (hne : lba ≠ 0) (hlt : lba < 2 ^ 32) :
  (e.setStart lba).Live := by
  change u32 lba ≠ 0
  rwa [u32_of_lt hlt]

lemma phys_dir {base : Nat} (hbase : base = afsBaseLba) :
    u32 (base + afsDirLba) = afsBaseLba + 1 := by
  rw [hbase]
  decide

lemma not_live_zero : ¬ Dirent.zero.Live := fun h => h rfl

structure Dirent.Sound (e : Dirent) : Prop where
  start : 2 ≤ e.startLba
  size : e.size ≤ maxSize
  stop : e.extent.stop < 2 ^ 32
  ended : 0 ∈ e.name

structure SoundDir (d : Dir) : Prop where
  entry : ∀ i, (d i).Live → (d i).Sound
  apart : ∀ i j, i ≠ j → (d i).Live → (d j).Live → (d i).extent.Apart (d j).extent

structure Layout (ram : Ram) (d : Dir) : Prop where
  dir : SoundDir d
  freeStart : ∀ e ∈ ram.freeExtents, 2 ≤ e.start
  freeStop : ∀ e ∈ ram.freeExtents, e.stop < 2 ^ 32
  freeApart : ram.freeExtents.Pairwise Extent.Apart
  mixed : ∀ i, (d i).Live → ∀ e ∈ ram.freeExtents, (d i).extent.Apart e
  next : ram.mounted = true → 2 ≤ ram.nextFreeLba ∧ ram.nextFreeLba < 2 ^ 32 ∧
    (∀ i, (d i).Live → (d i).extent.stop ≤ ram.nextFreeLba) ∧
    ∀ e ∈ ram.freeExtents, e.stop ≤ ram.nextFreeLba

structure Reserved (ram : Ram) (d : Dir) (e : Extent) : Prop where
  start : 2 ≤ e.start
  stop : e.stop < 2 ^ 32
  live : ∀ i, (d i).Live → e.Apart (d i).extent
  free : ∀ f ∈ ram.freeExtents, e.Apart f
  next : e.stop ≤ ram.nextFreeLba

structure Fits (ram : Ram) (d : Dir) (i : Fin afsMaxFiles) (e : Dirent) : Prop where
  sound : e.Sound
  live : ∀ j, j ≠ i → (d j).Live → e.extent.Apart (d j).extent
  free : ∀ f ∈ ram.freeExtents, e.extent.Apart f
  next : ram.mounted = true → e.extent.stop ≤ ram.nextFreeLba

structure SpaceOnly (ram ram' : Ram) : Prop where
  mounted : ram'.mounted = ram.mounted
  totalSectors : ram'.totalSectors = ram.totalSectors
  base : ram'.base = ram.base
  bounded : ram'.nextFreeLba ≤ max ram.nextFreeLba ram.totalSectors

lemma SpaceOnly.refl (ram : Ram) : SpaceOnly ram ram := ⟨rfl, rfl, rfl, le_max_left _ _⟩

namespace Layout

variable {ram ram' : Ram} {d : Dir}

section
variable (h : Layout ram d)
include h

lemma congr (hfree : ram'.freeExtents = ram.freeExtents)
  (hnext : ram'.nextFreeLba = ram.nextFreeLba) (hmounted : ram'.mounted = ram.mounted) :
  Layout ram' d := by
  refine ⟨h.dir, ?_, ?_, ?_, ?_, ?_⟩ <;> rw [hfree]
  · exact h.freeStart
  · exact h.freeStop
  · exact h.freeApart
  · exact h.mixed
  rw [hnext, hmounted]
  exact h.next

lemma unmounted : Layout { ram with mounted := false } d :=
  ⟨h.dir, h.freeStart, h.freeStop, h.freeApart, h.mixed, fun hmounted => by cases hmounted⟩

lemma install (i : Fin afsMaxFiles) {e : Dirent} (hfits : e.Live → Fits ram d i e) :
  Layout ram (update d i e) := by
  have hother : ∀ {j}, j ≠ i → update d i e j = d j :=
    fun hj => Function.update_of_ne hj _ _
  have hself : update d i e i = e := Function.update_self _ _ _
  refine ⟨⟨?_, ?_⟩, h.freeStart, h.freeStop, h.freeApart, ?_, fun hmounted => ?_⟩
  · refine (forall_update_iff d fun _ x => x.Live → x.Sound).mpr
      ⟨fun he => (hfits he).sound, fun j _ => h.dir.entry j⟩
  · intro j k hjk hj hk
    by_cases hij : j = i
    · subst hij
      rw [hself] at hj ⊢
      rw [hother (Ne.symm hjk)] at hk ⊢
      exact (hfits hj).live k (Ne.symm hjk) hk
    rw [hother hij] at hj ⊢
    by_cases hik : k = i
    · subst hik
      rw [hself] at hk ⊢
      exact ((hfits hk).live j hij hj).symm
    rw [hother hik] at hk ⊢
    exact h.dir.apart j k hjk hj hk
  · refine (forall_update_iff d fun _ x => x.Live → ∀ f ∈ ram.freeExtents,
      x.extent.Apart f).mpr ⟨fun he => (hfits he).free, fun j _ => h.mixed j⟩
  obtain ⟨hlo, hhi, hlives, hfrees⟩ := h.next hmounted
  exact ⟨hlo, hhi, (forall_update_iff d fun _ x => x.Live →
    x.extent.stop ≤ ram.nextFreeLba).mpr ⟨fun he => (hfits he).next hmounted,
      fun j _ => hlives j⟩, hfrees⟩

lemma clear (i : Fin afsMaxFiles) : Layout ram (update d i Dirent.zero) :=
  h.install i fun hlive => absurd hlive not_live_zero

lemma free {e : Extent} (hres : Reserved ram d e) :
  Layout { ram with freeExtents := ram.freeExtents ++ [e] } d := by
  have hmem : ∀ {P : Extent → Prop}, (∀ f ∈ ram.freeExtents, P f) → P e →
      ∀ f ∈ ram.freeExtents ++ [e], P f := by
    intro P hold hnew f hf
    rcases mem_append.mp hf with hf | hf
    · exact hold f hf
    · rwa [mem_singleton.mp hf]
  refine ⟨h.dir, hmem h.freeStart hres.start, hmem h.freeStop hres.stop, ?_, fun i hi => ?_,
    fun hmounted => ?_⟩
  · refine pairwise_append.mpr ⟨h.freeApart, pairwise_singleton _ _, fun a ha b hb => ?_⟩
    rw [mem_singleton.mp hb]
    exact (hres.free a ha).symm
  · exact hmem (h.mixed i hi) (hres.live i hi).symm
  obtain ⟨hlo, hhi, hlives, hfrees⟩ := h.next hmounted
  exact ⟨hlo, hhi, hlives, hmem hfrees hres.next⟩

lemma perm {l : List Extent} (hperm : l.Perm ram.freeExtents) :
  Layout { ram with freeExtents := l } d := by
  have hmem : ∀ {e}, e ∈ l → e ∈ ram.freeExtents := fun he => hperm.mem_iff.mp he
  refine ⟨h.dir, fun e he => h.freeStart e (hmem he), fun e he => h.freeStop e (hmem he), ?_,
    fun i hi e he => h.mixed i hi e (hmem he), fun hmounted => ?_⟩
  · exact (hperm.pairwise_iff fun hab => hab.symm).mpr h.freeApart
  obtain ⟨hlo, hhi, hlives, hfrees⟩ := h.next hmounted
  exact ⟨hlo, hhi, hlives, fun e he => hfrees e (hmem he)⟩

end

variable {e : Extent} {l : List Extent}

lemma tail (h : Layout { ram with freeExtents := e :: l } d) :
  Layout { ram with freeExtents := l } d := by
  have hmem : ∀ {f}, f ∈ l → f ∈ e :: l := fun hf => mem_cons_of_mem _ hf
  refine ⟨h.dir, fun f hf => h.freeStart f (hmem hf), fun f hf => h.freeStop f (hmem hf),
    (pairwise_cons.mp h.freeApart).2, fun i hi f hf => h.mixed i hi f (hmem hf),
    fun hmounted => ?_⟩
  obtain ⟨hlo, hhi, hlives, hfrees⟩ := h.next hmounted
  exact ⟨hlo, hhi, hlives, fun f hf => hfrees f (hmem hf)⟩

lemma reserved_of_within (h : Layout { ram with freeExtents := e :: l } d)
  (hmounted : ram.mounted = true) {part : Extent} (hin : part.Within e)
  (hstart : e.start ≤ part.start) (hstop : part.stop ≤ e.stop) :
  Reserved { ram with freeExtents := l } d part := by
  have hhead : e ∈ e :: l := mem_cons_self
  obtain ⟨_, _, _, hfrees⟩ := h.next hmounted
  refine ⟨(h.freeStart e hhead).trans hstart, hstop.trans_lt (h.freeStop e hhead), fun i hi => ?_,
    fun f hf => ?_, hstop.trans (hfrees e hhead)⟩
  · exact (h.mixed i hi e hhead).symm.within hin
  · exact ((pairwise_cons.mp h.freeApart).1 f hf).within hin

end Layout

lemma allocFromFreeList_cases (l : List Extent) (n : Nat) :
  ((∀ e ∈ l, e.count < n) ∧ allocFromFreeList l n = (0, l)) ∨
    ∃ e others, l.Perm (e :: others) ∧ n ≤ e.count ∧ (allocFromFreeList l n).1 = e.start ∧
      ((e.count = n ∧ (allocFromFreeList l n).2.Perm others) ∨
        (n < e.count ∧ (allocFromFreeList l n).2.Perm
          (⟨u32 (e.start + n), e.count - n⟩ :: others))) := by
  have hspan : l.span (fun e => decide (e.count < n)) =
      (l.takeWhile fun e => e.count < n, l.dropWhile fun e => e.count < n) :=
    span_eq_takeWhile_dropWhile _ _
  unfold allocFromFreeList
  rw [hspan]
  cases hdrop : l.dropWhile fun e => e.count < n with
  | nil =>
    refine .inl ⟨fun e he => ?_, rfl⟩
    simpa using dropWhile_eq_nil_iff.mp hdrop e he
  | cons e after =>
    have hfits : n ≤ e.count := by
      have hne : (l.dropWhile fun e => e.count < n) ≠ [] := by simp [hdrop]
      have hhead := head_dropWhile_not (fun e : Extent => decide (e.count < n)) hne
      simpa [hdrop] using hhead
    have hsplit : l = (l.takeWhile fun e => e.count < n) ++ e :: after := by
      rw [← hdrop]
      exact (takeWhile_append_dropWhile).symm
    generalize (l.takeWhile fun e => e.count < n) = before at hsplit
    refine .inr ⟨e, before ++ after, ?_, hfits, rfl, ?_⟩
    · rw [hsplit]
      exact perm_middle
    dsimp only
    by_cases hall : e.count - n = 0
    · rw [if_pos hall]
      exact .inl ⟨by omega, swapRemove_perm before _ after⟩
    rw [if_neg hall]
    exact .inr ⟨by omega, perm_middle⟩

variable {ram : Ram} {n : Nat}

lemma Reserved.of_free {d : Dir} {e : Extent} (h : Reserved ram d e) {l : List Extent}
  (hfree : ∀ f ∈ l, f ∈ ram.freeExtents ∨ e.Apart f) :
  Reserved { ram with freeExtents := l } d e :=
  ⟨h.start, h.stop, h.live, fun f hf => (hfree f hf).elim (h.free f) id, h.next⟩

def NoRoom (ram : Ram) (n : Nat) : Prop :=
  (∀ e ∈ ram.freeExtents, e.count < n) ∧ ram.totalSectors < ram.nextFreeLba + n

section
variable (hstart : ∀ e ∈ ram.freeExtents, 2 ≤ e.start)
include hstart

/-- Inversion of the allocation in `afs_write`, with the bump pointer in 32 bits. -/
lemma allocSectors_inversion (hstop : ∀ e ∈ ram.freeExtents, e.stop < 2 ^ 32) :
  ((∀ e ∈ ram.freeExtents, e.count < n) ∧ ram.totalSectors < u32 (ram.nextFreeLba + n) ∧
    allocSectors ram n = (none, ram)) ∨
  ((∀ e ∈ ram.freeExtents, e.count < n) ∧ u32 (ram.nextFreeLba + n) ≤ ram.totalSectors ∧
    allocSectors ram n =
      (some ram.nextFreeLba, { ram with nextFreeLba := u32 (ram.nextFreeLba + n) })) ∨
  ∃ e others l, ram.freeExtents.Perm (e :: others) ∧ n ≤ e.count ∧
    allocSectors ram n = (some e.start, { ram with freeExtents := l }) ∧
    ((e.count = n ∧ l.Perm others) ∨ (n < e.count ∧ l.Perm (e.back n :: others))) := by
  rcases allocFromFreeList_cases ram.freeExtents n with
    ⟨hsmall, heq⟩ | ⟨e, others, hperm, hn, hgot, hrest⟩
  · -- Nothing on the free list fits: the bump pointer.
    simp only [allocSectors, heq, ne_eq, not_true_eq_false, if_false]
    split_ifs with hfull
    · exact .inl ⟨hsmall, hfull, rfl⟩
    · exact .inr (.inl ⟨hsmall, not_lt.mp hfull, rfl⟩)
  -- The front of an extent on the free list.
  have hmem := hperm.mem_iff.mpr mem_cons_self
  have hne : e.start ≠ 0 := by
    have := hstart e hmem
    omega
  have hback : (⟨u32 (e.start + n), e.count - n⟩ : Extent) = e.back n := by
    have hlt := hstop e hmem
    simp only [Extent.stop] at hlt
    rw [Extent.back, u32_of_lt (by omega)]
  rw [hback] at hrest
  exact .inr (.inr ⟨e, others, (allocFromFreeList ram.freeExtents n).2, hperm, hn,
    by simp [allocSectors, hgot, hne], hrest⟩)

/-- Inversion of the allocation where the bump pointer does not wrap. -/
lemma allocSectors_cases (hstop : ∀ e ∈ ram.freeExtents, e.stop < 2 ^ 32)
    (hroom : ram.nextFreeLba + n < 2 ^ 32) : (NoRoom ram n ∧ allocSectors ram n = (none, ram)) ∨
  ((∀ e ∈ ram.freeExtents, e.count < n) ∧ ram.nextFreeLba + n ≤ ram.totalSectors ∧
    allocSectors ram n =
      (some ram.nextFreeLba, { ram with nextFreeLba := ram.nextFreeLba + n })) ∨
  ∃ e others l, ram.freeExtents.Perm (e :: others) ∧ n ≤ e.count ∧
    allocSectors ram n = (some e.start, { ram with freeExtents := l }) ∧
    ((e.count = n ∧ l.Perm others) ∨ (n < e.count ∧ l.Perm (e.back n :: others))) := by
  have hcases := allocSectors_inversion (n := n) hstart hstop
  rw [u32_of_lt hroom] at hcases
  rcases hcases with ⟨hsmall, hfull, hcall⟩ | hbump | hfree
  · exact .inl ⟨⟨hsmall, hfull⟩, hcall⟩
  · exact .inr (.inl hbump)
  · exact .inr (.inr hfree)

end

lemma allocSectors_spec {d : Dir} (h : Layout ram d) (hmounted : ram.mounted = true)
  (hroom : ram.nextFreeLba + n < 2 ^ 32) :
  SpaceOnly ram (allocSectors ram n).2 ∧ Layout (allocSectors ram n).2 d ∧
    ∀ lba, (allocSectors ram n).1 = some lba → Reserved (allocSectors ram n).2 d ⟨lba, n⟩ := by
  rcases allocSectors_cases h.freeStart h.freeStop hroom with
    ⟨_, hcall⟩ | ⟨_, hfits, hcall⟩ | ⟨e, others, l, hperm, hn, hcall, hrest⟩
  · rw [hcall]
    exact ⟨SpaceOnly.refl ram, h, fun lba hlba => by cases hlba⟩
  · obtain ⟨hlo, hhi, hlives, hfrees⟩ := h.next hmounted
    rw [hcall]
    refine ⟨⟨rfl, rfl, rfl, hfits.trans (le_max_right _ _)⟩, ⟨h.dir, h.freeStart, h.freeStop,
      h.freeApart, h.mixed, fun _ => ⟨by dsimp only; omega, hroom,
        fun i hi => (hlives i hi).trans ?_,
        fun f hf => (hfrees f hf).trans ?_⟩⟩, ?_⟩
    · exact Nat.le_add_right _ _
    · exact Nat.le_add_right _ _
    intro lba hlba
    obtain rfl : ram.nextFreeLba = lba := some.inj hlba
    exact ⟨hlo, hroom, fun i hi => (Extent.apart_of_stop_le (hlives i hi)).symm,
      fun f hf => (Extent.apart_of_stop_le (hfrees f hf)).symm, le_rfl⟩
  have hsplit := h.perm hperm.symm
  have hfront : Reserved { ram with freeExtents := others } d (e.front n) :=
    hsplit.reserved_of_within hmounted (Extent.front_within hn) le_rfl
      (Nat.add_le_add_left hn e.start)
  rw [hcall]
  refine ⟨⟨rfl, rfl, rfl, le_max_left _ _⟩, ?_⟩
  rcases hrest with ⟨_, hrest⟩ | ⟨hmore, hrest⟩
  · refine ⟨hsplit.tail.perm hrest, fun lba hlba => ?_⟩
    obtain rfl : e.start = lba := some.inj hlba
    exact hfront.of_free fun f hf => .inl (hrest.mem_iff.mp hf)
  have hkept : Reserved { ram with freeExtents := others } d (e.back n) := by
    exact hsplit.reserved_of_within hmounted (Extent.back_within hn) (Nat.le_add_right _ _)
      (Extent.stop_back hn).le
  have hjoined := (hsplit.tail.free hkept).perm
    (hrest.trans (perm_append_singleton (e.back n) others).symm)
  refine ⟨hjoined, fun lba hlba => ?_⟩
  obtain rfl : e.start = lba := some.inj hlba
  refine hfront.of_free fun f hf => ?_
  rcases mem_cons.mp (hrest.mem_iff.mp hf) with rfl | hf
  · exact .inr (e.front_apart_back n)
  · exact .inl hf

end Aeos.Afs
