/-
# Where the space goes

After a format, sectors are taken from the bump pointer or from the free list, and only
a delete gives them back.
-/

import Aeos.Afs.Contents
import Aeos.Afs.Remount

namespace Aeos.Afs

open Lib List Option Function

/-! ## Owners of sectors -/

def fileExtents (d : Dir) : List Extent :=
  ((List.finRange afsMaxFiles).filter fun i => (d i).Live).map fun i => (d i).extent

def owners (ram : Ram) (d : Dir) : List Extent := fileExtents d ++ ram.freeExtents

/-- Every sector handed out so far belongs to exactly one file or free extent. -/
def Accounted (ram : Ram) (d : Dir) : Prop :=
  ∀ s, ram.dataLba ≤ s → s < ram.nextFreeLba → (owners ram d).countP (fun e => e.Has s) = 1

variable {d : Dir} {ram : Ram} {n : Nat} {fs : Fs} {name : List UInt8}

lemma mem_fileExtents {e : Extent} : e ∈ fileExtents d ↔ ∃ i, (d i).Live ∧ (d i).extent = e := by
  simp [fileExtents]

lemma length_fileExtents_le (d : Dir) : (fileExtents d).length ≤ afsMaxFiles := by
  rw [fileExtents, length_map]
  exact (length_filter_le _ _).trans (length_finRange).le

def Owned (ram : Ram) (d : Dir) (s : Nat) : Prop :=
  (∃ i, (d i).Live ∧ (d i).extent.Has s) ∨ ∃ e ∈ ram.freeExtents, e.Has s

lemma owned_iff {s : Nat} : Owned ram d s ↔ ∃ e ∈ owners ram d, e.Has s := by
  constructor
  · rintro (⟨i, hi, hs⟩ | ⟨e, he, hs⟩)
    · exact ⟨_, mem_append_left _ (mem_fileExtents.mpr ⟨i, hi, rfl⟩), hs⟩
    · exact ⟨e, mem_append_right _ he, hs⟩
  rintro ⟨e, he, hs⟩
  rcases mem_append.mp he with he | he
  · obtain ⟨i, hi, rfl⟩ := mem_fileExtents.mp he
    exact .inl ⟨i, hi, hs⟩
  · exact .inr ⟨e, he, hs⟩

lemma Layout.owners_apart (h : Layout ram d) : (owners ram d).Pairwise Extent.Apart := by
  refine pairwise_append.mpr ⟨?_, h.freeApart, ?_⟩
  · refine pairwise_map.mpr ?_
    refine List.Pairwise.imp_of_mem ?_ ((nodup_finRange afsMaxFiles).filter _)
    intro i j hi hj hne
    exact h.dir.apart i j hne (by simpa using (mem_filter.mp hi).2)
      (by simpa using (mem_filter.mp hj).2)
  intro e he f hf
  obtain ⟨i, hi, rfl⟩ := mem_fileExtents.mp he
  exact h.mixed i hi f hf

lemma Layout.accounted (h : Layout ram d)
  (hcovered : ∀ s, ram.dataLba ≤ s → s < ram.nextFreeLba → Owned ram d s) : Accounted ram d := by
  intro s hlo hhi
  have hpos : 0 < (owners ram d).countP fun e => e.Has s := by
    obtain ⟨e, he, hs⟩ := owned_iff.mp (hcovered s hlo hhi)
    exact countP_pos_iff.mpr ⟨e, he, by simpa using hs⟩
  have hle := Extent.countP_has_le_one h.owners_apart s
  omega

lemma Reserved.not_accounted {e : Extent} (h : Reserved ram d e) (hcount : 0 < e.count)
  (hdata : ram.dataLba = 2) : ¬ Accounted ram d := by
  intro haccounted
  have hfirst : e.Has e.start := ⟨le_rfl, Nat.lt_add_of_pos_right hcount⟩
  have hone := haccounted e.start (hdata ▸ h.start) (hfirst.2.trans_le h.next)
  have hpos : 0 < (owners ram d).countP fun e' => e'.Has e.start := by omega
  obtain ⟨f, hf, hs⟩ := countP_pos_iff.mp hpos
  have howned : Owned ram d e.start := owned_iff.mpr ⟨f, hf, by simpa using hs⟩
  rcases howned with ⟨i, hi, hs⟩ | ⟨f, hf, hs⟩
  · exact h.live i hi _ hfirst hs
  · exact h.free f hf _ hfirst hs

section
variable (h : Layout ram d)
include h

lemma allocSectors_owned {lba : Nat} (hroom : ram.nextFreeLba + n < 2 ^ 32)
    (hgot : (allocSectors ram n).1 = some lba) {s : Nat}
    (hs : s < (allocSectors ram n).2.nextFreeLba) (hold : s < ram.nextFreeLba → Owned ram d s) :
  (Extent.mk lba n).Has s ∨ Owned (allocSectors ram n).2 d s := by
  rcases allocSectors_cases h.freeStart h.freeStop hroom with
    ⟨_, hcall⟩ | ⟨_, _, hcall⟩ | ⟨e, others, l, hperm, _, hcall, hrest⟩ <;>
    rw [hcall] at hgot hs ⊢
  · cases hgot
  · obtain rfl : ram.nextFreeLba = lba := some.inj hgot
    by_cases hnew : s < ram.nextFreeLba
    · exact .inr (hold hnew)
    · exact .inl ⟨not_lt.mp hnew, hs⟩
  obtain rfl : e.start = lba := some.inj hgot
  rcases hold hs with hfile | ⟨f, hf, hhas⟩
  · exact .inr (.inl hfile)
  rcases mem_cons.mp (hperm.mem_iff.mp hf) with rfl | hf
  · rcases hhas.front_or_back n with hfront | hback
    · exact .inl hfront
    rcases hrest with ⟨hall, _⟩ | ⟨_, hl⟩
    · -- Nothing is left of the extent.
      exfalso
      simp only [Extent.Has, Extent.stop, Extent.back] at hback
      omega
    · exact .inr (.inr ⟨_, hl.mem_iff.mpr mem_cons_self, hback⟩)
  refine .inr (.inr ⟨f, ?_, hhas⟩)
  rcases hrest with ⟨_, hl⟩ | ⟨_, hl⟩
  · exact hl.mem_iff.mpr hf
  · exact hl.mem_iff.mpr (mem_cons_of_mem _ hf)

lemma allocSectors_noRoom (hroom : ram.nextFreeLba + n < 2 ^ 32) (hfull : NoRoom ram n) :
  allocSectors ram n = (none, ram) := by
  rcases allocSectors_cases h.freeStart h.freeStop hroom with
    ⟨_, hcall⟩ | ⟨_, hfits, _⟩ | ⟨e, others, _, hperm, hn, _⟩
  · exact hcall
  · exact absurd hfull.2 (not_lt.mpr hfits)
  · exact absurd (hfull.1 e (hperm.mem_iff.mpr mem_cons_self)) (not_lt.mpr hn)

lemma allocSectors_room (hroom : ram.nextFreeLba + n < 2 ^ 32) (hnot : ¬ NoRoom ram n) : ∃ lba,
  (allocSectors ram n).1 = some lba ∧ (allocSectors ram n).2.nextFreeLba ≤ ram.nextFreeLba + n ∧
    ((∃ e ∈ ram.freeExtents, n ≤ e.count ∧ e.start = lba) ∨
      ((∀ e ∈ ram.freeExtents, e.count < n) ∧ ram.nextFreeLba = lba)) := by
  rcases allocSectors_cases h.freeStart h.freeStop hroom with
    ⟨hfull, _⟩ | ⟨hsmall, _, hcall⟩ | ⟨e, others, l, hperm, hn, hcall, _⟩
  · exact absurd hfull hnot
  · rw [hcall]
    exact ⟨_, rfl, le_rfl, .inr ⟨hsmall, rfl⟩⟩
  rw [hcall]
  exact ⟨_, rfl, Nat.le_add_right _ _,
    .inl ⟨e, hperm.mem_iff.mpr mem_cons_self, hn, rfl⟩⟩

lemma allocSectors_free (hroom : ram.nextFreeLba + n < 2 ^ 32) :
  (allocSectors ram n).2.freeExtents.length ≤ ram.freeExtents.length ∧
    ∀ f ∈ (allocSectors ram n).2.freeExtents, ∃ e ∈ ram.freeExtents,
      f.count ≤ e.count ∧ f.stop ≤ e.stop := by
  rcases allocSectors_cases h.freeStart h.freeStop hroom with
    ⟨_, hcall⟩ | ⟨_, _, hcall⟩ | ⟨e, others, l, hperm, hn, hcall, hrest⟩ <;> rw [hcall]
  · exact ⟨le_rfl, fun f hf => ⟨f, hf, le_rfl, le_rfl⟩⟩
  · exact ⟨le_rfl, fun f hf => ⟨f, hf, le_rfl, le_rfl⟩⟩
  have hlen := hperm.length_eq
  have hkept : ∀ f ∈ others, ∃ e' ∈ ram.freeExtents, f.count ≤ e'.count ∧ f.stop ≤ e'.stop :=
    fun f hf => ⟨f, hperm.mem_iff.mpr (mem_cons_of_mem _ hf), le_rfl, le_rfl⟩
  rw [length_cons] at hlen
  rcases hrest with ⟨_, hl⟩ | ⟨_, hl⟩
  · refine ⟨?_, fun f hf => hkept f (hl.mem_iff.mp hf)⟩
    rw [hl.length_eq, hlen]
    exact Nat.le_succ _
  refine ⟨by rw [hl.length_eq, hlen, length_cons], fun f hf => ?_⟩
  rcases mem_cons.mp (hl.mem_iff.mp hf) with rfl | hf
  · exact ⟨e, hperm.mem_iff.mpr mem_cons_self, Nat.sub_le _ _, (Extent.stop_back hn).le⟩
  · exact hkept f hf

end

lemma afsWrite_noRoom {bytes : List UInt8} (hargs : Writable fs bytes)
  (hplace : placeFile fs.ram fs.dir name (sectorsFor bytes.length) = (none, fs.ram)) :
  (afsWrite fs (some name) (some bytes)).2 = fs.counted := by
  have hresult := afsWrite_result name hargs
  generalize afsWrite fs (some name) (some bytes) = result at hresult
  obtain ⟨code, fs'⟩ := result
  cases hresult with
  | unread => rfl
  | noRoom hother =>
    obtain ⟨_, rfl⟩ := Prod.mk.inj (hplace.symm.trans hother)
    rfl
  | broken hother | nameless hother | unflushed hother | written hother =>
    cases hplace.symm.trans hother

variable {i : Fin afsMaxFiles}

lemma not_live_of_free
  (hslot : ((List.finRange afsMaxFiles).find? fun i => (d i).startLba = 0) = some i) :
  ¬ (d i).Live := by
  have hzero : (d i).startLba = 0 := by simpa using List.find?_some hslot
  exact fun hlive => hlive hzero

lemma placeFile_new {lba : Nat} {ram' : Ram} (hnone : findName d name = none)
  (hslot : ((List.finRange afsMaxFiles).find? fun i => (d i).startLba = 0) = some i)
  (halloc : allocSectors ram n = (some lba, ram')) (hres : Reserved ram' d ⟨lba, n⟩) :
  placeFile ram d name n = (some (lba, update d i ((Dirent.fresh name).setStart lba)), ram') ∧
    Placement ram' d name n i lba (update d i ((Dirent.fresh name).setStart lba)) := by
  rw [placeFile_created hnone hslot, halloc]
  exact ⟨rfl, .created hnone (not_live_of_free hslot) hres⟩

/-! ## Runs after a format -/

/-- Writes and deletes after a format at boot, on a device without faults; no delete meets a full
free list. -/
def spaceMachine : Machine Fs CallEvent where
  init fs := ∃ fs₀ : Fs, fs₀.ram = Ram.boot ∧ (∀ n, fs₀.dev.fault n = false) ∧
    afsFormat fs₀ = (true, fs)
  enabled fs e :=
    match e with
    | .write _ _ => True
    | .delete name => ∀ i, findName fs.dir name = some i →
        fs.ram.freeExtents.length < afsMaxFreeExtents
  step := callReact

/-- A write of `n` sectors loses none: it fills the extent of its file, or there is no room, or it
makes a new file whose name fits and whose sectors exist. -/
def KeepsSpace (fs : Fs) (name : List UInt8) (n : Nat) : Prop :=
  match findName fs.dir name with
  | some i => n = (fs.dir i).extent.count ∨
      ((fs.dir i).extent.count < n ∧ NoRoom fs.ram n)
  | none => (∀ i, (fs.dir i).Live) ∨ NoRoom fs.ram n ∨
      ((cstr name).length < afsNameLen ∧
        ((∃ e ∈ fs.ram.freeExtents, n ≤ e.count) ∨
          afsBaseLba + fs.ram.nextFreeLba + n ≤ fs.dev.sectors))

lemma KeepsSpace.filled (hfound : findName fs.dir name = some i)
  (heq : n = (fs.dir i).extent.count) : KeepsSpace fs name n := by
  unfold KeepsSpace
  rw [hfound]
  exact .inl heq

lemma KeepsSpace.created (hnone : findName fs.dir name = none)
  (hfits : (cstr name).length < afsNameLen)
  (hin : afsBaseLba + fs.ram.nextFreeLba + n ≤ fs.dev.sectors) : KeepsSpace fs name n := by
  unfold KeepsSpace
  rw [hnone]
  exact .inr (.inr ⟨hfits, .inr hin⟩)

def spaceGuard (fs : Fs) : CallEvent → Prop
  | .write name data => ∀ name' bytes, name = some name' → data = some bytes →
      Writable fs bytes → KeepsSpace fs name' (sectorsFor bytes.length)
  | .delete _ => True

def maxSectors : Nat := 2048

structure SpaceInv (fs : Fs) : Prop where
  settled : Settled fs
  fault : ∀ n, fs.dev.fault n = false
  room : afsBaseLba + 2 ≤ fs.dev.sectors
  range : ∀ i, (fs.dir i).Live → afsBaseLba + (fs.dir i).extent.stop ≤ fs.dev.sectors
  nonempty : ∀ i, (fs.dir i).Live → 0 < (fs.dir i).size
  freeRange : ∀ e ∈ fs.ram.freeExtents,
    e.count ≤ maxSectors ∧ afsBaseLba + e.stop ≤ fs.dev.sectors
  freeCount : fs.ram.freeExtents.length ≤ afsMaxFreeExtents
  covered : ∀ s, 2 ≤ s → s < fs.ram.nextFreeLba → Owned fs.ram fs.dir s

namespace SpaceInv

variable {fs : Fs}

section
variable (h : SpaceInv fs)
include h

lemma layout : Layout fs.ram fs.dir := h.settled.volume.layout

lemma base : fs.ram.base = afsBaseLba := h.settled.volume.base

lemma accounted : Accounted fs.ram fs.dir := by
  refine h.layout.accounted ?_
  rw [h.settled.dataLba]
  exact h.covered

end

variable {fs' : Fs} {bytes name : List UInt8} {i : Fin afsMaxFiles}

lemma refuses_dir (h : SpaceInv fs) (hbase : fs'.ram.base = fs.ram.base)
  (hsectors : fs'.dev.sectors = fs.dev.sectors) (hfault : fs'.dev.fault = fs.dev.fault) :
  fs'.refuses afsDirLba 1 = false := by
  rw [Fs.refuses_eq_fault, hfault, h.fault]
  rw [phys_dir (hbase.trans h.base), hsectors]
  exact h.room

lemma count_le {e : Dirent} (hsound : e.Sound) : e.extent.count ≤ maxSectors := by
  have hsize := hsound.size
  simp only [Dirent.extent, maxSectors, sectSize, maxSize] at hsize ⊢
  omega

section
variable (h : SpaceInv fs)
include h

lemma next_le : fs.ram.nextFreeLba ≤ 2 + (afsMaxFiles + afsMaxFreeExtents) * maxSectors := by
  have hcount : ∀ e ∈ owners fs.ram fs.dir, e.count ≤ maxSectors := by
    intro e he
    rcases mem_append.mp he with he | he
    · obtain ⟨i, hi, rfl⟩ := mem_fileExtents.mp he
      exact count_le (h.layout.dir.entry i hi)
    · exact (h.freeRange e he).1
  have hlen : (owners fs.ram fs.dir).length ≤ afsMaxFiles + afsMaxFreeExtents := by
    rw [owners, length_append]
    exact Nat.add_le_add (length_fileExtents_le _) h.freeCount
  have hsub : fs.ram.nextFreeLba - 2 ≤ (owners fs.ram fs.dir).length * maxSectors :=
    Extent.sub_le_length_mul (fun s hlo hhi => owned_iff.mp (h.covered s hlo hhi)) hcount
  have hmul := Nat.mul_le_mul_right maxSectors hlen
  omega

section
variable (hargs : Writable fs bytes)
include hargs

lemma wrap : afsBaseLba + fs.ram.nextFreeLba + 2 * sectorsFor bytes.length < 2 ^ 32 := by
  have hnext := h.next_le
  have hlen := hargs.2.2
  simp only [afsMaxFiles, afsMaxFreeExtents, maxSectors, maxSize, sectorsFor, sectSize,
    afsBaseLba] at *
  omega

lemma next_lt : fs.ram.nextFreeLba + sectorsFor bytes.length < 2 ^ 32 := by
  have hwrap := h.wrap hargs
  omega

lemma write_placed {lba : Nat} {d : Dir} {ram : Ram}
    (hplace : placeFile fs.ram fs.dir name (sectorsFor bytes.length) = (some (lba, d), ram))
    (hp : Placement ram fs.dir name (sectorsFor bytes.length) i lba d)
    (hnext : ram.nextFreeLba ≤ fs.ram.nextFreeLba + sectorsFor bytes.length)
    (hcall : (afsWrite fs (some name) (some bytes)).2 = fs') :
  (∃ iobuf, fs'.ram = { ram with iobuf := iobuf }) ∧ fs'.dev.sectors = fs.dev.sectors ∧
    fs'.dev.fault = fs.dev.fault ∧
    fs'.dir = if afsBaseLba + lba + sectorsFor bytes.length ≤ fs.dev.sectors ∧
        ¬ (findName fs.dir name = none ∧ afsNameLen ≤ (cstr name).length) then
      update fs.dir i ((d i).setSize bytes.length) else fs.dir := by
  obtain ⟨hspace, hlayout, _, hinv, hmeta⟩ :=
    h.settled.volume.staged h.settled.mounted (h.next_lt hargs) hplace
  have hbase : ram.base = afsBaseLba := hspace.base.trans h.base
  have hstop := hp.stop_le hlayout (hspace.mounted.trans h.settled.mounted)
  have hwrap : ram.base + lba + sectorsFor bytes.length < 2 ^ 32 := by
    have hlimit := h.wrap hargs
    omega
  have hlo := (hp.bounds hlayout).1
  have hfault : ∀ n, ({ fs.counted with ram := ram } : Fs).dev.fault n = false := h.fault
  -- The loop runs to its end exactly if the sectors exist.
  have hloop : (writeChunks { fs.counted with ram := ram } lba bytes (chunksOf bytes.length)).1 =
      true ↔ afsBaseLba + lba + sectorsFor bytes.length ≤ fs.dev.sectors := by
    rw [← hbase]
    exact ⟨writeChunks_range hwrap hlo hargs.2.1,
      fun hin => writeChunks_ok hfault hlo hin hwrap _ le_rfl⟩
  have hagain := hp.findName_eq hlayout
  have hdir : Fs.dir { fs.counted with ram := ram } = fs.dir := Fs.dir_withRam hspace.base
  have hresult := afsWrite_result name hargs
  generalize afsWrite fs (some name) (some bytes) = result at hresult hcall
  obtain ⟨code, fs''⟩ := result
  obtain rfl : fs'' = fs' := hcall
  dsimp only at hresult
  have hsame : ∀ {placed ram'}, placeFile fs.ram fs.dir name (sectorsFor bytes.length) =
      (some placed, ram') → placed = (lba, d) ∧ ram' = ram := by
    intro placed ram' hother
    rw [hplace] at hother
    exact ⟨(some.inj (Prod.mk.inj hother).1).symm, (Prod.mk.inj hother).2.symm⟩
  cases hresult with
  | unread hrefused =>
    exact absurd (hrefused.symm.trans (h.refuses_dir rfl rfl rfl)) (by decide)
  | noRoom hother => cases hplace.symm.trans hother
  | broken hother hdone =>
    obtain ⟨hboth, rfl⟩ := hsame hother
    obtain ⟨rfl, rfl⟩ := Prod.mk.inj hboth
    rw [hdone] at hmeta hloop
    refine ⟨⟨_, hmeta.ram⟩, hmeta.sectors, hmeta.fault, ?_⟩
    rw [if_neg fun hin => Bool.false_ne_true (hloop.mpr hin.1), hmeta.dir hinv.base_le, hdir]
  | nameless hother hdone hnone =>
    obtain ⟨hboth, rfl⟩ := hsame hother
    obtain ⟨rfl, rfl⟩ := Prod.mk.inj hboth
    rw [hdone] at hmeta
    refine ⟨⟨_, hmeta.ram⟩, hmeta.sectors, hmeta.fault, ?_⟩
    rw [if_neg fun hin => ?_, hmeta.dir hinv.base_le, hdir]
    rw [hnone, if_neg hin.2] at hagain
    cases hagain
  | unflushed hother hdone hrefused =>
    obtain ⟨hboth, rfl⟩ := hsame hother
    obtain ⟨rfl, rfl⟩ := Prod.mk.inj hboth
    rw [hdone] at hmeta
    exact absurd (hrefused.symm.trans (h.refuses_dir (hmeta.base.trans hspace.base) hmeta.sectors
      hmeta.fault)) (by decide)
  | @written _ _ _ fs₁ j hother hdone hfound =>
    obtain ⟨hboth, rfl⟩ := hsame hother
    obtain ⟨rfl, rfl⟩ := Prod.mk.inj hboth
    rw [hdone] at hmeta hloop
    rw [hfound] at hagain
    split_ifs at hagain with hunfit
    obtain rfl : j = i := some.inj hagain
    refine ⟨⟨_, hmeta.ram⟩, hmeta.sectors, hmeta.fault, ?_⟩
    rw [if_pos ⟨hloop.mp rfl, hunfit⟩, dir_flushed, hp.update_eq]

end

/-! ### Steps that keep every sector -/

lemma congr (hsettled : Settled fs') (hsectors : fs'.dev.sectors = fs.dev.sectors)
  (hfault : fs'.dev.fault = fs.dev.fault) (hfree : fs'.ram.freeExtents = fs.ram.freeExtents)
  (hnext : fs'.ram.nextFreeLba = fs.ram.nextFreeLba)
  (hlive : ∀ i, (fs'.dir i).Live ↔ (fs.dir i).Live)
  (hextent : ∀ i, (fs'.dir i).extent = (fs.dir i).extent)
  (hsize : ∀ i, (fs.dir i).Live → 0 < (fs'.dir i).size) : SpaceInv fs' where
  settled := hsettled
  fault := by
    rw [hfault]
    exact h.fault
  room := by
    rw [hsectors]
    exact h.room
  range i hi := by
    rw [hextent, hsectors]
    exact h.range i ((hlive i).mp hi)
  nonempty i hi := hsize i ((hlive i).mp hi)
  freeRange := by
    rw [hfree, hsectors]
    exact h.freeRange
  freeCount := by
    rw [hfree]
    exact h.freeCount
  covered s hlo hhi := by
    rw [hnext] at hhi
    rcases h.covered s hlo hhi with ⟨i, hi, hs⟩ | ⟨e, he, hs⟩
    · exact .inl ⟨i, (hlive i).mpr hi, by rwa [hextent]⟩
    · exact .inr ⟨e, by rwa [hfree], hs⟩

lemma counted (hsettled : Settled fs.counted) : SpaceInv fs.counted :=
  h.congr hsettled rfl rfl rfl rfl (fun _ => Iff.rfl) (fun _ => rfl) h.nonempty

lemma created {n lba : Nat} {e : Dirent} (hsettled : Settled fs')
  (hsectors : fs'.dev.sectors = fs.dev.sectors) (hfault : fs'.dev.fault = fs.dev.fault)
  (hroom : fs.ram.nextFreeLba + n < 2 ^ 32) (hgot : (allocSectors fs.ram n).1 = some lba)
  (hfree : fs'.ram.freeExtents = (allocSectors fs.ram n).2.freeExtents)
  (hnext : fs'.ram.nextFreeLba = (allocSectors fs.ram n).2.nextFreeLba)
  (hdir : fs'.dir = update fs.dir i e) (hdead : ¬ (fs.dir i).Live) (hlive : e.Live)
  (hextent : e.extent = ⟨lba, n⟩) (hsize : 0 < e.size)
  (hin : afsBaseLba + lba + n ≤ fs.dev.sectors) : SpaceInv fs' where
  settled := hsettled
  fault := by
    rw [hfault]
    exact h.fault
  room := by
    rw [hsectors]
    exact h.room
  range := by
    rw [hdir, hsectors]
    refine (forall_update_iff fs.dir fun _ x =>
      x.Live → afsBaseLba + x.extent.stop ≤ fs.dev.sectors).mpr ⟨fun _ => ?_, fun j _ => h.range j⟩
    rw [hextent, Extent.stop, ← Nat.add_assoc]
    exact hin
  nonempty := by
    rw [hdir]
    exact (forall_update_iff fs.dir fun _ x => x.Live → 0 < x.size).mpr
      ⟨fun _ => hsize, fun j _ => h.nonempty j⟩
  freeRange f hf := by
    rw [hfree] at hf
    obtain ⟨e', he', hcount, hstop⟩ := (allocSectors_free h.layout hroom).2 f hf
    obtain ⟨hmax, hend⟩ := h.freeRange e' he'
    rw [hsectors]
    exact ⟨hcount.trans hmax, (Nat.add_le_add_left hstop _).trans hend⟩
  freeCount := by
    rw [hfree]
    exact (allocSectors_free h.layout hroom).1.trans h.freeCount
  covered s hlo hhi := by
    rw [hnext] at hhi
    rcases allocSectors_owned h.layout hroom hgot hhi (h.covered s hlo) with
      hs | ⟨j, hj, hs⟩ | ⟨f, hf, hs⟩
    · refine .inl ⟨i, ?_⟩
      rw [hdir, update_self, hextent]
      exact ⟨hlive, hs⟩
    · refine .inl ⟨j, ?_⟩
      have hij : j ≠ i := fun heq => hdead (heq ▸ hj)
      rw [hdir, update_of_ne hij]
      exact ⟨hj, hs⟩
    · exact .inr ⟨f, by rwa [hfree], hs⟩

lemma freed (hsettled : Settled fs') (hsectors : fs'.dev.sectors = fs.dev.sectors)
  (hfault : fs'.dev.fault = fs.dev.fault) (hlive : (fs.dir i).Live)
  (hroom : fs.ram.freeExtents.length < afsMaxFreeExtents)
  (hfree : fs'.ram.freeExtents = fs.ram.freeExtents ++ [(fs.dir i).extent])
  (hnext : fs'.ram.nextFreeLba = fs.ram.nextFreeLba)
  (hdir : fs'.dir = update fs.dir i Dirent.zero) : SpaceInv fs' where
  settled := hsettled
  fault := by
    rw [hfault]
    exact h.fault
  room := by
    rw [hsectors]
    exact h.room
  range := by
    rw [hdir, hsectors]
    exact (forall_update_iff fs.dir fun _ x =>
      x.Live → afsBaseLba + x.extent.stop ≤ fs.dev.sectors).mpr
        ⟨fun hzero => absurd hzero not_live_zero, fun j _ => h.range j⟩
  nonempty := by
    rw [hdir]
    exact (forall_update_iff fs.dir fun _ x => x.Live → 0 < x.size).mpr
      ⟨fun hzero => absurd hzero not_live_zero, fun j _ => h.nonempty j⟩
  freeRange f hf := by
    rw [hsectors]
    rw [hfree] at hf
    rcases mem_append.mp hf with hf | hf
    · exact h.freeRange f hf
    rw [mem_singleton.mp hf]
    exact ⟨count_le (h.layout.dir.entry i hlive), h.range i hlive⟩
  freeCount := by
    rw [hfree, length_append]
    exact hroom
  covered s hlo hhi := by
    rw [hnext] at hhi
    rcases h.covered s hlo hhi with ⟨j, hj, hs⟩ | ⟨f, hf, hs⟩
    · by_cases hij : j = i
      · refine .inr ⟨(fs.dir i).extent, ?_, hij ▸ hs⟩
        rw [hfree]
        exact mem_append_right _ (mem_singleton_self _)
      refine .inl ⟨j, ?_⟩
      rw [hdir, update_of_ne hij]
      exact ⟨hj, hs⟩
    refine .inr ⟨f, ?_, hs⟩
    rw [hfree]
    exact mem_append_left _ hf

lemma step_settled (e : CallEvent) : Settled (callReact fs e) := by
  refine h.settled.step e ?_
  cases e with
  | write name data =>
    intro bytes _ hargs
    exact h.next_lt hargs
  | delete name => exact fun _ => h.refuses_dir rfl rfl rfl

section
variable (hargs : Writable fs bytes)
include hargs

lemma write_inPlace (hfound : findName fs.dir name = some i)
    (hle : sectorsFor bytes.length ≤ (fs.dir i).extent.count) :
  (∃ iobuf, (afsWrite fs (some name) (some bytes)).2.ram = { fs.ram with iobuf := iobuf }) ∧
    (afsWrite fs (some name) (some bytes)).2.dev.sectors = fs.dev.sectors ∧
    (afsWrite fs (some name) (some bytes)).2.dev.fault = fs.dev.fault ∧
    (afsWrite fs (some name) (some bytes)).2.dir =
      update fs.dir i ((fs.dir i).setSize bytes.length) ∧
    ((fs.dir i).setSize bytes.length).extent =
      (fs.dir i).extent.front (sectorsFor bytes.length) := by
  have hlive := (findName_some hfound).1
  have hcount : nlbasOf (fs.dir i).size = (fs.dir i).extent.count :=
    nlbasOf_eq (h.layout.dir.entry i hlive).size
  have hp : Placement fs.ram fs.dir name (sectorsFor bytes.length) i (fs.dir i).startLba fs.dir :=
    .inPlace hfound rfl hle
  obtain ⟨hram, hsectors, hfault, hdir⟩ := h.write_placed hargs
    (placeFile_inPlace hfound (by omega)) hp (Nat.le_add_right _ _) rfl
  have hin : afsBaseLba + (fs.dir i).startLba + sectorsFor bytes.length ≤ fs.dev.sectors := by
    refine le_trans ?_ (h.range i hlive)
    rw [Nat.add_assoc]
    exact Nat.add_le_add_left (Nat.add_le_add_left hle _) _
  rw [if_pos ⟨hin, fun hnone => by simp [hfound] at hnone⟩] at hdir
  exact ⟨hram, hsectors, hfault, hdir, hp.extent_eq h.layout hargs.2.2 rfl⟩

lemma write_filled (hfound : findName fs.dir name = some i)
    (heq : sectorsFor bytes.length = (fs.dir i).extent.count) :
  SpaceInv (afsWrite fs (some name) (some bytes)).2 := by
  have hsettled := h.step_settled (.write (some name) (some bytes))
  obtain ⟨⟨iobuf, hram⟩, hsectors, hfault, hdir, hextent⟩ := h.write_inPlace hargs hfound heq.le
  have hsame : ((fs.dir i).setSize bytes.length).extent = (fs.dir i).extent := by
    rw [hextent, heq]
    rfl
  refine h.congr hsettled hsectors hfault (by rw [hram]) (by rw [hram]) ?_ ?_ ?_
  · rw [hdir]
    refine (forall_update_iff fs.dir fun j x => x.Live ↔ (fs.dir j).Live).mpr
      ⟨Iff.rfl, fun j _ => Iff.rfl⟩
  · rw [hdir]
    exact (forall_update_iff fs.dir fun j x => x.extent = (fs.dir j).extent).mpr
      ⟨hsame, fun j _ => rfl⟩
  rw [hdir]
  refine (forall_update_iff fs.dir fun j x => (fs.dir j).Live → 0 < x.size).mpr
    ⟨fun _ => ?_, fun j _ => h.nonempty j⟩
  rw [size_setSize _ hargs.2.2]
  exact Nat.pos_of_ne_zero hargs.2.1

lemma alloc (hroom : ¬ NoRoom fs.ram (sectorsFor bytes.length)) : ∃ lba ram,
  allocSectors fs.ram (sectorsFor bytes.length) = (some lba, ram) ∧
    ram.nextFreeLba ≤ fs.ram.nextFreeLba + sectorsFor bytes.length ∧ Layout ram fs.dir ∧
    Reserved ram fs.dir ⟨lba, sectorsFor bytes.length⟩ ∧
    ((∃ e ∈ fs.ram.freeExtents, sectorsFor bytes.length ≤ e.count ∧ e.start = lba) ∨
      ((∀ e ∈ fs.ram.freeExtents, e.count < sectorsFor bytes.length) ∧
        fs.ram.nextFreeLba = lba)) := by
  obtain ⟨lba, hgot, hnext, hwhere⟩ := allocSectors_room h.layout (h.next_lt hargs) hroom
  obtain ⟨_, hlayout, hres⟩ := allocSectors_spec h.layout h.settled.mounted (h.next_lt hargs)
  exact ⟨lba, _, Prod.ext hgot rfl, hnext, hlayout, hres lba hgot, hwhere⟩

lemma write_created (hnone : findName fs.dir name = none)
    (hslot : ((List.finRange afsMaxFiles).find? fun i => (fs.dir i).startLba = 0) = some i)
    (hroom : ¬ NoRoom fs.ram (sectorsFor bytes.length)) (hfits : (cstr name).length < afsNameLen)
    (hwhere : (∃ e ∈ fs.ram.freeExtents, sectorsFor bytes.length ≤ e.count) ∨
    afsBaseLba + fs.ram.nextFreeLba + sectorsFor bytes.length ≤ fs.dev.sectors) :
  SpaceInv (afsWrite fs (some name) (some bytes)).2 := by
  have hsettled := h.step_settled (.write (some name) (some bytes))
  obtain ⟨lba, ram, halloc, hnext, hlayout, hres, hfrom⟩ := h.alloc hargs hroom
  obtain ⟨hplace, hp⟩ := placeFile_new hnone hslot halloc hres
  obtain ⟨⟨iobuf, hram⟩, hsectors, hfault, hdir⟩ := h.write_placed hargs hplace hp hnext rfl
  have hin : afsBaseLba + lba + sectorsFor bytes.length ≤ fs.dev.sectors := by
    rcases hfrom with ⟨e, he, hcount, rfl⟩ | ⟨hsmall, rfl⟩
    · refine le_trans ?_ (h.freeRange e he).2
      rw [Nat.add_assoc]
      exact Nat.add_le_add_left (Nat.add_le_add_left hcount _) _
    rcases hwhere with ⟨e, he, hcount⟩ | hin
    · exact absurd hcount (not_le.mpr (hsmall e he))
    · exact hin
  rw [if_pos ⟨hin, fun hlong => absurd hfits (not_lt.mpr hlong.2)⟩] at hdir
  have hextent := hp.extent_eq hlayout hargs.2.2 rfl
  have hsize := size_setSize (update fs.dir i ((Dirent.fresh name).setStart lba) i)
    hargs.2.2
  refine h.created hsettled hsectors hfault (h.next_lt hargs) (by rw [halloc])
    (by rw [hram, halloc]) (by rw [hram, halloc]) hdir (not_live_of_free hslot) ?_ hextent ?_ hin
  · rw [update_self]
    have hlo := hres.start
    have hhi := hres.stop
    simp only [Extent.stop] at hlo hhi
    exact live_setStart (Dirent.fresh name) (by omega) (by omega)
  rw [hsize]
  exact Nat.pos_of_ne_zero hargs.2.1

end

lemma write (name data : Option (List UInt8)) (hguard : spaceGuard fs (.write name data)) :
  SpaceInv (afsWrite fs name data).2 := by
  have hsettled := h.step_settled (.write name data)
  rcases afsWrite_cases fs name data with heq | ⟨name, bytes, rfl, rfl, hargs, _⟩
  · rw [heq]
    exact h
  have hkeeps := hguard name bytes rfl rfl hargs
  have hroom := h.next_lt hargs
  have hunplaced : placeFile fs.ram fs.dir name (sectorsFor bytes.length) = (none, fs.ram) →
      SpaceInv (afsWrite fs (some name) (some bytes)).2 := by
    intro hplace
    have hcall := afsWrite_noRoom hargs hplace
    rw [callReact, hcall] at hsettled
    rw [hcall]
    exact h.counted hsettled
  have hnone := allocSectors_noRoom h.layout hroom
  unfold KeepsSpace at hkeeps
  cases hfound : findName fs.dir name with
  | some i =>
    rw [hfound] at hkeeps
    have hlive := (findName_some hfound).1
    have hcount : nlbasOf (fs.dir i).size = (fs.dir i).extent.count :=
      nlbasOf_eq (h.layout.dir.entry i hlive).size
    rcases hkeeps with heq | ⟨hgrows, hfull⟩
    · exact h.write_filled hargs hfound heq
    refine hunplaced ?_
    rw [placeFile_moved hfound (by omega), hnone hfull]
    rfl
  | none =>
    rw [hfound] at hkeeps
    cases hslot : (List.finRange afsMaxFiles).find? fun i => (fs.dir i).startLba = 0 with
    | none => exact hunplaced (placeFile_full hfound hslot)
    | some i =>
      by_cases hfull : NoRoom fs.ram (sectorsFor bytes.length)
      · refine hunplaced ?_
        rw [placeFile_created hfound hslot, hnone hfull]
        rfl
      rcases hkeeps with hall | hfull' | ⟨hfits, hwhere⟩
      · exact absurd (hall i) (not_live_of_free hslot)
      · exact absurd hfull' hfull
      · exact h.write_created hargs hfound hslot hfull hfits hwhere

lemma delete (name : List UInt8) (henabled : ∀ i, findName fs.dir name = some i →
    fs.ram.freeExtents.length < afsMaxFreeExtents) : SpaceInv (afsDelete fs name).2 := by
  have hsettled : Settled (afsDelete fs name).2 := h.step_settled (.delete name)
  have hresult := afsDelete_cases h.layout.dir h.settled.mounted name
  generalize afsDelete fs name = result at hresult hsettled
  obtain ⟨code, fs'⟩ := result
  cases hresult with
  | unread => exact h.counted hsettled
  | missing => exact h.counted hsettled
  | unflushed _ _ hrefused =>
    exact absurd (hrefused.symm.trans (h.refuses_dir rfl rfl rfl)) (by decide)
  | @deleted i hfound =>
    have hlive := (findName_some hfound).1
    have hcount : 0 < (fs.dir i).extent.count := by
      have hsize := h.nonempty i hlive
      simp only [Dirent.extent, sectSize]
      omega
    have hroom := henabled i hfound
    exact h.freed hsettled rfl rfl hlive hroom (if_pos ⟨hcount, hroom⟩) rfl (dir_flushed _ _)

end

/-! ### Steps that lose sectors -/

lemma lost {ram : Ram} {d : Dir} {e : Extent} (hsettled : Settled fs')
  (hram : ∃ iobuf, fs'.ram = { ram with iobuf := iobuf }) (hdir : fs'.dir = d)
  (hres : Reserved ram d e) (hcount : 0 < e.count) : ¬ Accounted fs'.ram fs'.dir := by
  obtain ⟨iobuf, hram⟩ := hram
  have hres' : Reserved fs'.ram fs'.dir e := by
    rw [hram, hdir]
    exact ⟨hres.start, hres.stop, hres.live, hres.free, hres.next⟩
  exact hres'.not_accounted hcount hsettled.dataLba

section
variable (h : SpaceInv fs)
include h

lemma write_shrinks (hargs : Writable fs bytes) (hfound : findName fs.dir name = some i)
    (hless : sectorsFor bytes.length < (fs.dir i).extent.count) :
  ¬ Accounted (afsWrite fs (some name) (some bytes)).2.ram
    (afsWrite fs (some name) (some bytes)).2.dir := by
  have hlive := (findName_some hfound).1
  have hsound := h.layout.dir.entry i hlive
  obtain ⟨hram, _, _, hdir, hextent⟩ := h.write_inPlace hargs hfound hless.le
  have hwithin := Extent.back_within hless.le
  refine lost (h.step_settled (.write (some name) (some bytes))) hram hdir
    (e := (fs.dir i).extent.back (sectorsFor bytes.length)) ⟨?_, ?_, ?_, ?_, ?_⟩
    (Nat.sub_pos_of_lt hless)
  · exact hsound.start.trans (Nat.le_add_right _ _)
  · rw [Extent.stop_back hless.le]
    exact hsound.stop
  · refine (forall_update_iff fs.dir fun _ x => x.Live →
      ((fs.dir i).extent.back (sectorsFor bytes.length)).Apart x.extent).mpr
        ⟨fun _ => ?_, fun j hij hj => ?_⟩
    · rw [hextent]
      exact (Extent.front_apart_back _ _).symm
    · exact (h.layout.dir.apart i j (Ne.symm hij) hlive hj).within hwithin
  · exact fun f hf => (h.layout.mixed i hlive f hf).within hwithin
  rw [Extent.stop_back hless.le]
  exact (h.layout.next h.settled.mounted).2.2.1 i hlive

lemma write_grows (hargs : Writable fs bytes) (hfound : findName fs.dir name = some i)
    (hmore : (fs.dir i).extent.count < sectorsFor bytes.length)
    (hroom : ¬ NoRoom fs.ram (sectorsFor bytes.length)) :
  ¬ Accounted (afsWrite fs (some name) (some bytes)).2.ram
    (afsWrite fs (some name) (some bytes)).2.dir := by
  have hlive := (findName_some hfound).1
  have hsound := h.layout.dir.entry i hlive
  have hcount : nlbasOf (fs.dir i).size = (fs.dir i).extent.count := nlbasOf_eq hsound.size
  obtain ⟨lba, ram, halloc, hnext, hlayout, hres, _⟩ := h.alloc hargs hroom
  have hp : Placement ram fs.dir name (sectorsFor bytes.length) i lba
      (update fs.dir i ((fs.dir i).setStart lba)) := .moved hfound hres
  have hplace : placeFile fs.ram fs.dir name (sectorsFor bytes.length) =
      (some (lba, update fs.dir i ((fs.dir i).setStart lba)), ram) := by
    rw [placeFile_moved hfound (by omega), halloc]
    rfl
  have hsettled := h.step_settled (.write (some name) (some bytes))
  obtain ⟨hram, _, _, hdir⟩ := h.write_placed hargs hplace hp hnext rfl
  split_ifs at hdir
  · have hextent := hp.extent_eq hlayout hargs.2.2 rfl
    have hmounted : ram.mounted = true := by
      obtain ⟨iobuf, hram⟩ := hram
      have hstill := hsettled.mounted
      rw [callReact, hram] at hstill
      exact hstill
    have hpos : 0 < (fs.dir i).extent.count := by
      have hsize := h.nonempty i hlive
      simp only [Dirent.extent, sectSize]
      omega
    refine lost hsettled hram hdir (e := (fs.dir i).extent)
      ⟨hsound.start, hsound.stop, ?_, hlayout.mixed i hlive, (hlayout.next hmounted).2.2.1 i hlive⟩
      hpos
    refine (forall_update_iff fs.dir fun _ x => x.Live →
      (fs.dir i).extent.Apart x.extent).mpr ⟨fun _ => ?_, fun j hij hj => ?_⟩
    · rw [hextent]
      exact (hres.live i hlive).symm
    · exact h.layout.dir.apart i j (Ne.symm hij) hlive hj
  · exact lost hsettled hram hdir hres (Nat.zero_lt_of_lt hmore)

lemma write_unnamed (hargs : Writable fs bytes) (hnone : findName fs.dir name = none)
    (hslot : ((List.finRange afsMaxFiles).find? fun i => (fs.dir i).startLba = 0) = some i)
    (hroom : ¬ NoRoom fs.ram (sectorsFor bytes.length)) (hnot : ¬ ((cstr name).length < afsNameLen ∧
    ((∃ e ∈ fs.ram.freeExtents, sectorsFor bytes.length ≤ e.count) ∨
      afsBaseLba + fs.ram.nextFreeLba + sectorsFor bytes.length ≤ fs.dev.sectors))) :
  ¬ Accounted (afsWrite fs (some name) (some bytes)).2.ram
    (afsWrite fs (some name) (some bytes)).2.dir := by
  obtain ⟨lba, ram, halloc, hnext, hlayout, hres, hfrom⟩ := h.alloc hargs hroom
  obtain ⟨hplace, hp⟩ := placeFile_new hnone hslot halloc hres
  obtain ⟨hram, _, _, hdir⟩ := h.write_placed hargs hplace hp hnext rfl
  have hpos : 0 < sectorsFor bytes.length := by
    have hlen := hargs.2.1
    simp only [sectorsFor, sectSize]
    omega
  rw [if_neg fun hboth => hnot ⟨?_, ?_⟩] at hdir
  · exact lost (h.step_settled (.write (some name) (some bytes))) hram hdir hres hpos
  · exact not_le.mp fun hlong => hboth.2 ⟨hnone, hlong⟩
  rcases hfrom with ⟨e, he, hcount, _⟩ | ⟨_, rfl⟩
  · exact .inl ⟨e, he, hcount⟩
  · exact .inr hboth.1

lemma write_loses {name data : Option (List UInt8)} (hguard : ¬ spaceGuard fs (.write name data)) :
  ¬ Accounted (afsWrite fs name data).2.ram (afsWrite fs name data).2.dir := by
  simp only [spaceGuard, not_forall] at hguard
  obtain ⟨name, bytes, rfl, rfl, hargs, hguard⟩ := hguard
  unfold KeepsSpace at hguard
  cases hfound : findName fs.dir name with
  | some i =>
    rw [hfound] at hguard
    obtain ⟨hne, hroom⟩ := not_or.mp hguard
    rcases lt_or_gt_of_ne hne with hless | hmore
    · exact h.write_shrinks hargs hfound hless
    · exact h.write_grows hargs hfound hmore fun hfull => hroom ⟨hmore, hfull⟩
  | none =>
    rw [hfound] at hguard
    obtain ⟨hsome, hguard⟩ := not_or.mp hguard
    obtain ⟨hroom, hguard⟩ := not_or.mp hguard
    cases hslot : (List.finRange afsMaxFiles).find? fun i => (fs.dir i).startLba = 0 with
    | none =>
      refine absurd (fun i hzero => ?_) hsome
      exact absurd hzero (by simpa using List.find?_eq_none.mp hslot i (mem_finRange i))
    | some i => exact h.write_unnamed hargs hfound hslot hroom hguard

end

lemma of_init (hinit : spaceMachine.init fs) : SpaceInv fs := by
  obtain ⟨fs₀, hram, hfault, hok⟩ := hinit
  have hbase : fs₀.ram.base = afsBaseLba := by
    rw [hram]
    rfl
  have hfree : fs₀.ram.freeExtents = [] := by
    rw [hram]
    rfl
  have hclean : Remount.format.Clean fs₀ := hfree
  have hsettled : Settled fs := Settled.of_remount hbase hclean hok
  obtain ⟨rfl, hin⟩ := afsFormat_some hok
  rw [phys_dir hbase] at hin
  have hdead := fs₀.not_live_formatted
  have hnil : fs₀.formatted.ram.freeExtents = [] := hfree
  exact ⟨hsettled, hfault, hin, fun i hi => absurd hi (hdead i), fun i hi => absurd hi (hdead i),
    by simp [hnil], by simp [hnil], fun s hlo hhi => absurd hhi (not_lt.mpr hlo)⟩

end SpaceInv

/-- Along every run of writes and deletes after a format, every sector handed out belongs to
exactly one file or free extent throughout, if and only if every step meets the condition. -/
theorem sectors_accounted_iff {fs fs' : Fs} {es : List CallEvent} (hinit : spaceMachine.init fs)
  (hrun : spaceMachine.Run fs es fs') :
  spaceMachine.Throughout (fun fs => Accounted fs.ram fs.dir) fs es ↔
    (spaceMachine.restrict spaceGuard).Run fs es fs' := by
  refine hrun.throughout_iff (fun _ h => h.accounted) ?_ ?_ (SpaceInv.of_init hinit)
  · intro fs e h henabled hguard
    cases e with
    | write name data => exact h.write name data hguard
    | delete name => exact h.delete name henabled
  intro fs e h _ hguard
  cases e with
  | write name data => exact h.write_loses hguard
  | delete name => exact absurd trivial hguard

lemma blankFs_formatted : spaceMachine.init (afsFormat blankFs).2 :=
  ⟨blankFs, rfl, fun _ => rfl, Prod.ext (by decide +kernel) rfl⟩

def madeAndFreed : List CallEvent :=
  [.write (some [97]) (some [1]), .write (some [97]) (some [2]), .delete [97]]

theorem sectors_accounted_freed :
  spaceMachine.Throughout (fun fs => Accounted fs.ram fs.dir) (afsFormat blankFs).2
    madeAndFreed := by
  have hdelete :
      ∀ i, findName ((madeAndFreed.take 2).foldl callReact (afsFormat blankFs).2).dir [97]
      = some i → ((madeAndFreed.take 2).foldl callReact
        (afsFormat blankFs).2).ram.freeExtents.length
        < afsMaxFreeExtents := by
    intro i _
    decide +kernel
  have hrun : spaceMachine.Run (afsFormat blankFs).2 madeAndFreed
      (madeAndFreed.foldl callReact (afsFormat blankFs).2) :=
    .cons trivial (.cons trivial (.cons hdelete (.nil _)))
  refine (sectors_accounted_iff blankFs_formatted hrun).mpr ?_
  refine .cons ⟨trivial, ?_⟩ (.cons ⟨trivial, ?_⟩ (.cons ⟨hdelete, trivial⟩ (.nil _)))
  · intro name bytes hname hbytes _
    cases hname
    cases hbytes
    exact .created (by decide +kernel) (by decide) (by decide +kernel)
  intro name bytes hname hbytes _
  cases hname
  cases hbytes
  exact .filled (i := firstEntry) (by decide +kernel) (by decide +kernel)

/-- A file of one sector grows to two: the sector it leaves belongs to nobody. -/
theorem grown_file_loses_sector : ∃ fs es fs', spaceMachine.init fs ∧ spaceMachine.Run fs es fs' ∧
  ∃ s, fs'.ram.dataLba ≤ s ∧ s < fs'.ram.nextFreeLba ∧
    (owners fs'.ram fs'.dir).countP (fun e => e.Has s) = 0 := by
  refine ⟨(afsFormat blankFs).2,
    [.write (some [97]) (some [1]), .write (some [97]) (some (List.replicate 513 1))], _,
    blankFs_formatted, .cons trivial (.cons trivial (.nil _)), 2, ?_, ?_, ?_⟩
  · decide +kernel
  · decide +kernel
  · decide +kernel

end Aeos.Afs
