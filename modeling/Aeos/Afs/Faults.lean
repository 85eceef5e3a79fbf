/-
# Failing requests

Mounts, writes and deletes with any subset of the block requests failing. The free list and the
bump pointer are updated before the request that makes the directory on the disk agree with
them, so a delete needs its directory written and a mount its directory read.
-/

import Aeos.Afs.Calls
import Aeos.Lib.Machine

namespace Aeos.Afs

open Lib Function

/-! ## The invariant of a volume -/

structure VolumeInv (fs : Fs) : Prop where
  base : fs.ram.base = afsBaseLba
  layout : Layout fs.ram fs.dir
  start : fs.superblock.valid = true → 2 ≤ fs.superblock.dataStartLba

namespace VolumeInv

variable {fs fs' : Fs}

section
variable (h : VolumeInv fs)
include h

lemma base_le : fs.ram.base + 2 ≤ 2 ^ 32 := by
  rw [h.base]
  decide

lemma of_meta (hmeta : MetaKept fs fs') : VolumeInv fs' := by
  refine ⟨hmeta.base.trans h.base, ?_, ?_⟩
  · rw [hmeta.dir h.base_le]
    exact h.layout.congr (by rw [hmeta.ram]) (by rw [hmeta.ram]) (by rw [hmeta.ram])
  rw [hmeta.superblock h.base_le]
  exact h.start

lemma withRam {ram : Ram} (hbase : ram.base = fs.ram.base) (hlayout : Layout ram fs.dir) :
    VolumeInv { fs with ram := ram } := by
  refine ⟨hbase.trans h.base, ?_, ?_⟩
  · rw [Fs.dir_withRam hbase]
    exact hlayout
  rw [Fs.superblock_withRam hbase]
  exact h.start

end

variable {d : Dir}

lemma flushed (hbase : fs.ram.base = afsBaseLba)
  (hstart : fs.superblock.valid = true → 2 ≤ fs.superblock.dataStartLba)
  (hlayout : Layout fs.ram d) : VolumeInv (fs.stored afsDirLba (dirEncode d) 1) := by
  refine ⟨hbase, ?_, ?_⟩
  · rw [dir_flushed]
    exact hlayout
  rw [superblock_flushed (by rw [hbase]; decide)]
  exact hstart

lemma staged (h : VolumeInv fs) {name bytes : List UInt8} (hmounted : fs.ram.mounted = true)
  (hroom : fs.ram.nextFreeLba + sectorsFor bytes.length < 2 ^ 32) {lba : Nat} {ram : Ram}
  (hplace : placeFile fs.ram fs.dir name (sectorsFor bytes.length) = (some (lba, d), ram)) :
  SpaceOnly fs.ram ram ∧ Layout ram fs.dir ∧
    (∃ i, Placement ram fs.dir name (sectorsFor bytes.length) i lba d) ∧
    VolumeInv { fs.counted with ram := ram } ∧
    MetaKept { fs.counted with ram := ram }
      (writeChunks { fs.counted with ram := ram } lba bytes (chunksOf bytes.length)).2 := by
  have hcounted := h.of_meta (MetaKept.counted fs)
  obtain ⟨hspace, hlayout, hplaced⟩ := placeFile_spec name h.layout hmounted hroom
  rw [hplace] at hspace hlayout hplaced
  obtain ⟨i, hi⟩ := hplaced lba d rfl
  obtain ⟨hlo, hhi⟩ := hi.bounds hlayout
  exact ⟨hspace, hlayout, ⟨i, hi⟩, hcounted.withRam hspace.base hlayout,
    writeChunks_meta _ _ hlo hhi _ le_rfl⟩

lemma write (h : VolumeInv fs) (name data : Option (List UInt8))
  (hroom : ∀ bytes, data = some bytes → Writable fs bytes →
    fs.ram.nextFreeLba + sectorsFor bytes.length < 2 ^ 32) :
  VolumeInv (afsWrite fs name data).2 := by
  rcases afsWrite_cases fs name data with heq | ⟨name, bytes, rfl, rfl, hargs, hresult⟩
  · rw [heq]
    exact h
  have hcounted := h.of_meta (MetaKept.counted fs)
  have hroom := hroom bytes rfl hargs
  generalize afsWrite fs (some name) (some bytes) = result at hresult
  obtain ⟨code, fs'⟩ := result
  cases hresult with
  | unread => exact hcounted
  | noRoom hplace =>
    obtain ⟨hspace, hlayout, _⟩ := placeFile_spec name h.layout hargs.1 hroom
    rw [hplace] at hspace hlayout
    exact hcounted.withRam hspace.base hlayout
  | broken hplace hloop =>
    obtain ⟨_, _, _, hinv, hmeta⟩ := h.staged hargs.1 hroom hplace
    rw [hloop] at hmeta
    exact hinv.of_meta hmeta
  | nameless hplace hloop =>
    obtain ⟨_, _, _, hinv, hmeta⟩ := h.staged hargs.1 hroom hplace
    rw [hloop] at hmeta
    exact hinv.of_meta hmeta
  | unflushed hplace hloop =>
    obtain ⟨_, _, _, hinv, hmeta⟩ := h.staged hargs.1 hroom hplace
    rw [hloop] at hmeta
    exact hinv.of_meta (hmeta.trans (MetaKept.counted _))
  | @written lba d ram fs' j hplace hloop hfound =>
    obtain ⟨_, hlayout, ⟨i, hi⟩, hinv, hmeta⟩ := h.staged hargs.1 hroom hplace
    rw [hloop] at hmeta
    -- The entry found again is the one the data was placed for.
    obtain rfl : i = j := by
      rw [hi.findName_eq hlayout] at hfound
      split_ifs at hfound
      exact Option.some.inj hfound
    have hdone : Layout ram (update d i ((d i).setSize bytes.length)) := by
      rw [hi.update_eq]
      exact hlayout.install i fun _ => hi.fits hlayout hargs.2.2 rfl
    have hinv' := hinv.of_meta hmeta
    refine flushed hinv'.base hinv'.start ?_
    exact hdone.congr (by rw [hmeta.ram]) (by rw [hmeta.ram]) (by rw [hmeta.ram])

lemma reserved_of_cleared {ram : Ram} (h : Layout ram d) (hmounted : ram.mounted = true)
  {i : Fin afsMaxFiles} (hlive : (d i).Live) :
  Reserved ram (update d i Dirent.zero) (d i).extent := by
  have hsound := h.dir.entry i hlive
  refine ⟨hsound.start, hsound.stop, ?_, h.mixed i hlive, (h.next hmounted).2.2.1 i hlive⟩
  refine (Function.forall_update_iff d fun _ x => x.Live → (d i).extent.Apart x.extent).mpr
    ⟨fun hzero => absurd hzero not_live_zero, fun j hj hlj => ?_⟩
  exact h.dir.apart i j (Ne.symm hj) hlive hlj

lemma delete (h : VolumeInv fs) (name : List UInt8)
  (hflushed : fs.ram.mounted = true → fs.refuses afsDirLba 1 = false →
    ∀ i, findName fs.dir name = some i → 0 < (fs.dir i).extent.count →
      fs.ram.freeExtents.length < afsMaxFreeExtents → fs.counted.refuses afsDirLba 1 = false) :
  VolumeInv (afsDelete fs name).2 := by
  cases hmounted : fs.ram.mounted with
  | false =>
    have heq : afsDelete fs name = (false, fs) := by simp [afsDelete, hmounted]
    rw [heq]
    exact h
  | true =>
    have hresult := afsDelete_cases h.layout.dir hmounted name
    have hcounted := h.of_meta (MetaKept.counted fs)
    generalize afsDelete fs name = result at hresult
    obtain ⟨code, fs'⟩ := result
    cases hresult with
    | unread => exact hcounted
    | missing => exact hcounted
    | @unflushed i hload hfound hflush =>
      -- Only a delete that puts nothing on the free list may fail to flush.
      have hsame : freedList fs.ram.freeExtents (fs.dir i) = fs.ram.freeExtents := by
        refine if_neg fun hadds => ?_
        have hok := hflushed hmounted hload i hfound hadds.1 hadds.2
        exact absurd (hflush.symm.trans hok) (by decide)
      have hfreed : fs.freed i = fs.counted := by
        rw [Fs.freed, hsame]
        rfl
      rw [hfreed]
      exact hcounted.of_meta (MetaKept.counted _)
    | @deleted i hfound hflush =>
      have hlive := (findName_some hfound).1
      have hclear := h.layout.clear i
      have hfreed : Layout (fs.freed i).ram (update fs.dir i Dirent.zero) := by
        simp only [Fs.freed, freedList]
        split_ifs
        · exact hclear.free (reserved_of_cleared h.layout hmounted hlive)
        · exact hclear
      have hbase : (fs.freed i).ram.base = afsBaseLba := h.base
      exact flushed hbase h.start hfreed

lemma resumed_spec (hdir : SoundDir fs.dir)
  (hread : fs.counted.refuses afsDirLba 1 = true → ∀ i, ¬ (fs.dir i).Live) :
  fs.superblock.dataStartLba ≤ fs.resumed ∧ fs.resumed < 2 ^ 32 ∧
    ∀ i, (fs.dir i).Live → (fs.dir i).extent.stop ≤ fs.resumed := by
  obtain ⟨hle, hlives, hcase⟩ := resumeLba_spec hdir fs.superblock.dataStartLba
  have hlt : fs.superblock.dataStartLba < 2 ^ 32 := leWord_lt _ _
  unfold Fs.resumed
  split_ifs with hload
  · exact ⟨le_rfl, hlt, fun i hi => absurd hi (hread hload i)⟩
  refine ⟨hle, ?_, hlives⟩
  rcases hcase with hcase | ⟨i, hi, hcase⟩
  · rwa [hcase]
  rw [hcase]
  exact (hdir.entry i hi).stop

lemma resumed (hbase : fs.ram.base = afsBaseLba)
  (hlayout : Layout { fs.ram with mounted := false } fs.dir)
  (hstart : 2 ≤ fs.superblock.dataStartLba)
  (hread : fs.counted.refuses afsDirLba 1 = true → ∀ i, ¬ (fs.dir i).Live)
  (hfree : ∀ e ∈ fs.ram.freeExtents, e.stop ≤ fs.superblock.dataStartLba ∨
    ∃ i, (fs.dir i).Live ∧ e.stop ≤ (fs.dir i).extent.stop)
  (hcall : (afsMount fs).1 = true) : VolumeInv (afsMount fs).2 := by
  rcases afsMount_cases fs with ⟨_, hfailed, _⟩ | ⟨_, iobuf, hcall⟩
  · exact absurd (hfailed.symm.trans hcall) (by decide)
  obtain ⟨hle, hlt, hlives⟩ := resumed_spec hlayout.dir hread
  rw [hcall]
  refine ⟨hbase, ⟨hlayout.dir, hlayout.freeStart, hlayout.freeStop, hlayout.freeApart,
    hlayout.mixed, fun _ => ⟨hstart.trans hle, hlt, hlives, fun e he => ?_⟩⟩, fun _ => hstart⟩
  rcases hfree e he with hlow | ⟨i, hi, hlow⟩
  · exact hlow.trans hle
  · exact hlow.trans (hlives i hi)

lemma mount (h : VolumeInv fs)
  (hread : fs.Mountable → fs.counted.refuses afsDirLba 1 = true → ∀ i, ¬ (fs.dir i).Live)
  (hfree : fs.Mountable → ∀ e ∈ fs.ram.freeExtents, e.stop ≤ fs.superblock.dataStartLba ∨
      ∃ i, (fs.dir i).Live ∧ e.stop ≤ (fs.dir i).extent.stop) : VolumeInv (afsMount fs).2 := by
  rcases afsMount_cases fs with ⟨_, _, hmeta⟩ | ⟨hok, iobuf, hcall⟩
  · exact h.of_meta hmeta
  exact resumed h.base h.layout.unmounted (h.start hok.2.2) (hread hok) (hfree hok)
    (by rw [hcall])

lemma formatted (hbase : fs.ram.base = afsBaseLba) (hfree : fs.ram.freeExtents = []) :
  VolumeInv fs.formatted := by
  have hdead := fs.not_live_formatted
  have hnil : fs.formatted.ram.freeExtents = [] := hfree
  have hnext : fs.formatted.ram.nextFreeLba = 2 := rfl
  refine ⟨hbase, ⟨⟨fun i hi => absurd hi (hdead i), fun i _ _ hi => absurd hi (hdead i)⟩, ?_, ?_,
    ?_,
    fun i hi => absurd hi (hdead i), fun _ => ⟨?_, ?_, fun i hi => absurd hi (hdead i), ?_⟩⟩, ?_⟩
  · simp [hnil]
  · simp [hnil]
  · simp [hnil]
  · exact hnext.ge
  · rw [hnext]
    decide
  · simp [hnil]
  intro _
  rw [Fs.superblock_formatted (by rw [hbase]; decide)]
  exact le_rfl

end VolumeInv

/-! ## Runs with faults -/

inductive DiskEvent
  | mount
  | write (name data : Option (List UInt8))
  | delete (name : List UInt8)

def diskReact (fs : Fs) : DiskEvent → Fs
  | .mount => (afsMount fs).2
  | .write name data => (afsWrite fs name data).2
  | .delete name => (afsDelete fs name).2

/-- Any sequence of calls after boot, on a volume as AEOS-FS leaves them, with any
choice of failing requests. -/
def diskMachine : Machine Fs DiskEvent where
  init fs := fs.ram = Ram.boot ∧ SoundDir fs.dir ∧
    (fs.superblock.valid = true → 2 ≤ fs.superblock.dataStartLba)
  enabled _ _ := True
  step := diskReact

/-- The condition on a step; `fs.counted` is the state in which the second request
of a call is made. -/
def faultGuard (fs : Fs) : DiskEvent → Prop
  | .mount => fs.Mountable →
      (fs.counted.refuses afsDirLba 1 = true → ∀ i, ¬ (fs.dir i).Live) ∧
        ∀ e ∈ fs.ram.freeExtents, e.stop ≤ fs.superblock.dataStartLba ∨
          ∃ i, (fs.dir i).Live ∧ e.stop ≤ (fs.dir i).extent.stop
  | .write _ data => ∀ bytes, data = some bytes → Writable fs bytes →
      fs.ram.nextFreeLba + sectorsFor bytes.length < 2 ^ 32
  | .delete name => fs.ram.mounted = true → fs.refuses afsDirLba 1 = false →
      ∀ i, findName fs.dir name = some i → 0 < (fs.dir i).extent.count →
        fs.ram.freeExtents.length < afsMaxFreeExtents → fs.counted.refuses afsDirLba 1 = false

lemma volumeInv_of_reachable {fs : Fs} (hfs : (diskMachine.restrict faultGuard).Reachable fs) :
  VolumeInv fs := by
  refine hfs.invariant VolumeInv ?_ ?_
  · rintro fs ⟨hram, hdir, hstart⟩
    refine ⟨by rw [hram]; rfl, ?_, hstart⟩
    rw [hram]
    exact ⟨hdir, by simp [Ram.boot], by simp [Ram.boot], by simp [Ram.boot], by simp [Ram.boot],
      by simp [Ram.boot]⟩
  rintro fs e h ⟨_, hguard⟩
  cases e with
  | mount => exact h.mount (fun hok => (hguard hok).1) fun hok => (hguard hok).2
  | write name data => exact h.write name data hguard
  | delete name => exact h.delete name hguard

def blankFs : Fs where
  ram := Ram.boot
  dev := { sectors := 16384, data := fun _ => 0, fault := fun _ => false, reqs := 0 }

def sampleFs (d : Dir) (fault : Nat → Bool) : Fs where
  ram := Ram.boot
  dev :=
    { sectors := 16384
      data := overwrite (overwrite (fun _ => 0) (afsBaseLba * sectSize) sectSize
          (sbEncode (freshSuperblock 16384)))
        ((afsBaseLba + 1) * sectSize) sectSize (dirEncode d)
      fault := fault
      reqs := 0 }

lemma sampleFs_dir (d : Dir) (fault : Nat → Bool) : (sampleFs d fault).dir = d := by
  refine (dirDecode_congr fun j hj => ?_).trans (dirDecode_dirEncode d)
  exact overwrite_inside hj

lemma sampleFs_superblock (d : Dir) (fault : Nat → Bool) :
  (sampleFs d fault).superblock = freshSuperblock 16384 := by
  refine (sbDecode_congr fun j hj => ?_).trans (sbDecode_freshSuperblock 16384)
  have hphys : u32 ((sampleFs d fault).ram.base + afsSbLba) = afsBaseLba := by
    change u32 (afsBaseLba + afsSbLba) = _
    decide
  rw [Fs.sector, hphys]
  refine (overwrite_outside (.inl ?_)).trans (overwrite_inside hj)
  simp only [sectSize, afsBaseLba] at hj ⊢
  omega

def firstEntry : Fin afsMaxFiles := ⟨0, by decide⟩

def sampleDir : Dir :=
  update (fun _ => Dirent.zero) firstEntry (((Dirent.fresh [97]).setStart 2).setSize 1)

lemma sampleDir_live {i : Fin afsMaxFiles} (hlive : (sampleDir i).Live) : i = firstEntry := by
  by_contra hne
  rw [sampleDir, Function.update_of_ne hne] at hlive
  exact not_live_zero hlive

lemma sampleDir_sound : SoundDir sampleDir := by
  refine ⟨fun i hi => ?_, fun i j hij hi hj => ?_⟩
  · obtain rfl := sampleDir_live hi
    exact ⟨by decide, by decide, by decide, by decide⟩
  · exact absurd ((sampleDir_live hi).trans (sampleDir_live hj).symm) hij

lemma sampleFs_init (fault : Nat → Bool) : diskMachine.init (sampleFs sampleDir fault) := by
  refine ⟨rfl, by rw [sampleFs_dir]; exact sampleDir_sound, fun _ => ?_⟩
  rw [sampleFs_superblock]
  decide

/-- Along every run whose steps meet the condition, no sector belongs to two files, or to a file
and an extent of the free list, and on a mounted volume all files lie below the bump pointer. -/
theorem files_share_no_sector {fs : Fs} (hfs : (diskMachine.restrict faultGuard).Reachable fs) :
  (∀ i j, i ≠ j → (fs.dir i).Live → (fs.dir j).Live →
    ∀ s, (fs.dir i).extent.Has s → ¬ (fs.dir j).extent.Has s) ∧
  (∀ i, (fs.dir i).Live → ∀ e ∈ fs.ram.freeExtents,
    ∀ s, (fs.dir i).extent.Has s → ¬ e.Has s) ∧
  (fs.ram.mounted = true →
    ∀ i, (fs.dir i).Live → ∀ s, (fs.dir i).extent.Has s → s < fs.ram.nextFreeLba) := by
  have hinv := volumeInv_of_reachable hfs
  refine ⟨hinv.layout.dir.apart, hinv.layout.mixed, fun hmounted i hi s hs => ?_⟩
  exact hs.2.trans_le ((hinv.layout.next hmounted).2.2.1 i hi)

/-- A mount, and a delete that cannot load the directory. -/
theorem files_share_no_sector_unread : ∃ fs,
  (diskMachine.restrict faultGuard).Reachable fs ∧ fs.dir = sampleDir ∧
    2 < fs.ram.nextFreeLba := by
  have hinit : (diskMachine.restrict faultGuard).init
    (sampleFs sampleDir fun n => decide (n = 2)) := sampleFs_init _
  have hmount := (Machine.reachable_of_init hinit).step (e := DiskEvent.mount)
    ⟨trivial, fun _ => ⟨fun hunread => absurd hunread (by decide +kernel),
      by simp [sampleFs, Ram.boot]⟩⟩
  have hreach := hmount.step (e := DiskEvent.delete [97])
    ⟨trivial, fun _ hread => absurd hread (by decide +kernel)⟩
  have hbelow := (files_share_no_sector hreach).2.2 (by decide +kernel) firstEntry
    (by decide +kernel) 2 (by decide +kernel)
  refine ⟨_, hreach, ?_, hbelow⟩
  set_option maxRecDepth 4000 in
  exact sampleFs_dir sampleDir fun n => decide (n = 2)

/-- A delete whose directory cannot be written: the file stays, and its sector is on
the free list. -/
theorem deleted_file_on_free_list : ∃ fs, diskMachine.Reachable fs ∧
  ∃ i, (fs.dir i).Live ∧ ∃ e ∈ fs.ram.freeExtents, ∃ s, (fs.dir i).extent.Has s ∧ e.Has s := by
  have hmount := (Machine.reachable_of_init (sampleFs_init fun n => decide (n = 3))).step
    (e := .mount) trivial
  refine ⟨_, hmount.step (e := .delete [97]) trivial, firstEntry, ?_, ⟨2, 1⟩, ?_, 2, ?_, ?_⟩
  · decide +kernel
  · decide +kernel
  · decide +kernel
  · decide +kernel

end Aeos.Afs
