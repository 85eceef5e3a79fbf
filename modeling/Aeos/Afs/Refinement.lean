/-
# AEOS-FS is a map from names to contents

On a device without faults, after one successful format, any sequence of writes, deletes, reads
and reboots keeps the volume a faithful picture of a finite map.
-/

import Aeos.Afs.Contents
import Aeos.Afs.Faults

namespace Aeos.Afs

open Lib Option Function

abbrev FileMap := List UInt8 → Option (List UInt8)

/-- The volume, and the map an observer keeps from the results of the calls. -/
structure FileState where
  fs : Fs
  files : FileMap

/-- A call, or a restart of the machine. -/
inductive FileEvent
  | write (name data : Option (List UInt8))
  | delete (name : List UInt8)
  | read (name : Option (List UInt8)) (buf max : Nat)
  | reboot

def FileMap.wrote (files : FileMap) (name data : Option (List UInt8)) : Option Nat → FileMap
  | some (_ + 1) =>
    match name with
    | some name => update files (cstr name) data
    | none => files
  | _ => files

def Fs.restarted (fs : Fs) : Fs := { fs with ram := Ram.boot }

def fileReact (s : FileState) : FileEvent → FileState
  | .write name data =>
    let r := afsWrite s.fs name data
    ⟨r.2, FileMap.wrote s.files name data r.1⟩
  | .delete name => ⟨(afsDelete s.fs name).2, update s.files (cstr name) none⟩
  | .read name buf max => ⟨(afsRead s.fs name buf max).2, s.files⟩
  | .reboot => ⟨(afsMount s.fs.restarted).2, s.files⟩

/-- Boot, one successful format, then any calls; reboots whose mount succeeds. -/
def fileMachine : Machine FileState FileEvent where
  init s := ∃ fs : Fs, fs.ram = Ram.boot ∧ (∀ n, fs.dev.fault n = false) ∧
    fs.dev.sectors < 2 ^ 31 ∧ afsFormat fs = (true, s.fs) ∧ s.files = fun _ => none
  enabled s e :=
    match e with
    | .reboot => (afsMount s.fs.restarted).1 = true
    | _ => True
  step := fileReact

structure Healthy (fs : Fs) : Prop where
  volume : VolumeInv fs
  fault : ∀ n, fs.dev.fault n = false
  small : fs.dev.sectors < 2 ^ 31
  room : afsBaseLba + 2 ≤ fs.dev.sectors
  superblock : fs.superblock = freshSuperblock fs.dev.sectors
  range : ∀ i, (fs.dir i).Live → afsBaseLba + (fs.dir i).extent.stop ≤ fs.dev.sectors

def Fs.contents (fs : Fs) (i : Fin afsMaxFiles) : List UInt8 :=
  bytesAt fs.dev.data (fs.addr (fs.dir i).startLba) (fs.dir i).size

structure Shows (fs : Fs) (files : FileMap) : Prop where
  unique : ∀ i j, (fs.dir i).Live → (fs.dir j).Live →
    cstr (fs.dir i).name = cstr (fs.dir j).name → i = j
  nonempty : ∀ i, (fs.dir i).Live → 0 < (fs.dir i).size
  lookup : ∀ name, files (cstr name) = (findName fs.dir name).map fs.contents

structure Refines (fs : Fs) (files : FileMap) : Prop where
  healthy : Healthy fs
  mounted : fs.ram.mounted = true
  total : fs.ram.totalSectors = fs.dev.sectors
  next : fs.ram.nextFreeLba ≤ fs.dev.sectors
  shows : Shows fs files

namespace Healthy

variable {fs fs' : Fs} (h : Healthy fs)
include h

lemma base : fs.ram.base = afsBaseLba := h.volume.base

lemma refuses_dir : fs.refuses afsDirLba 1 = false := by
  rw [Fs.refuses_eq_fault, h.fault]
  have hroom := h.room
  have hphys := phys_dir h.base
  omega

lemma of_meta (hmeta : MetaKept fs fs') : Healthy fs' := by
  have hdir := hmeta.dir h.volume.base_le
  refine ⟨h.volume.of_meta hmeta, ?_, ?_, ?_, ?_, ?_⟩
  · rw [hmeta.fault]
    exact h.fault
  · rw [hmeta.sectors]
    exact h.small
  · rw [hmeta.sectors]
    exact h.room
  · rw [hmeta.superblock h.volume.base_le, hmeta.sectors]
    exact h.superblock
  rw [hdir, hmeta.sectors]
  exact h.range

lemma withRam {ram : Ram} (hbase : ram.base = fs.ram.base) (hlayout : Layout ram fs.dir) :
    Healthy { fs with ram := ram } := by
  refine ⟨h.volume.withRam hbase hlayout, h.fault, h.small, h.room,
    (Fs.superblock_withRam hbase).trans h.superblock, ?_⟩
  rw [Fs.dir_withRam hbase]
  exact h.range

lemma flushed {d : Dir} (hlayout : Layout fs.ram d)
    (hrange : ∀ i, (d i).Live → afsBaseLba + (d i).extent.stop ≤ fs.dev.sectors) :
  Healthy (fs.stored afsDirLba (dirEncode d) 1) := by
  refine ⟨VolumeInv.flushed h.base h.volume.start hlayout, h.fault, h.small, h.room, ?_, ?_⟩
  · rw [superblock_flushed h.volume.base_le]
    exact h.superblock
  rw [dir_flushed]
  exact hrange

end Healthy

variable {fs fs' : Fs} {files : FileMap} {i : Fin afsMaxFiles} {lba : Nat}

lemma Shows.congr (h : Shows fs files) (hdir : fs'.dir = fs.dir)
  (hcontents : ∀ i, (fs.dir i).Live → fs'.contents i = fs.contents i) : Shows fs' files := by
  refine ⟨by rw [hdir]; exact h.unique, by rw [hdir]; exact h.nonempty, fun name => ?_⟩
  rw [h.lookup, hdir]
  cases hfound : findName fs.dir name with
  | none => rfl
  | some i => exact congrArg some (hcontents i (findName_some hfound).1).symm

lemma Fs.contents_congr (hdir : fs'.dir i = fs.dir i) (hbase : fs'.ram.base = fs.ram.base)
  (hdata : ∀ a, fs.addr (fs.dir i).startLba ≤ a → a < fs.addr (fs.dir i).extent.stop →
    fs'.dev.data a = fs.dev.data a) : fs'.contents i = fs.contents i := by
  have haddr : fs'.addr (fs.dir i).startLba = fs.addr (fs.dir i).startLba := by
    rw [Fs.addr, Fs.addr, hbase]
  rw [Fs.contents, Fs.contents, hdir, haddr]
  refine bytesAt_congr fun j hj => hdata _ (Nat.le_add_right _ _) ?_
  simp only [Fs.addr, Extent.stop, Dirent.extent, sectSize]
  omega

lemma Fs.stored_dir_data (hbase : fs.ram.base = afsBaseLba) (buf : Nat → UInt8) {a : Nat}
  (hlba : 2 ≤ lba) (ha : fs.addr lba ≤ a) :
  (fs.stored afsDirLba buf 1).dev.data a = fs.dev.data a := by
  refine overwrite_outside (.inr ?_)
  rw [phys_dir hbase, ← Nat.add_mul]
  refine le_trans ?_ ha
  rw [Fs.addr, hbase]
  exact Nat.mul_le_mul_right _ (Nat.add_le_add_left hlba _)

lemma Fs.contents_flushed (hbase : fs.ram.base = afsBaseLba) {d : Dir}
  (hstart : 2 ≤ (d i).startLba) : (fs.stored afsDirLba (dirEncode d) 1).contents i =
    bytesAt fs.dev.data (fs.addr (d i).startLba) (d i).size := by
  rw [Fs.contents, dir_flushed]
  exact bytesAt_congr fun j _ => Fs.stored_dir_data hbase _ hstart (Nat.le_add_right _ _)

lemma writeChunks_contents {data : List UInt8} (hbase : fs.ram.base + 2 ≤ 2 ^ 32)
  (hwrap : fs.ram.base + lba + sectorsFor data.length < 2 ^ 32) (hlba : 2 ≤ lba)
  (hdata : data.length ≠ 0) {j : Fin afsMaxFiles} (hsize : 0 < (fs.dir j).size)
  (hapart : Extent.Apart ⟨lba, sectorsFor data.length⟩ (fs.dir j).extent) :
  (writeChunks fs lba data (chunksOf data.length)).2.contents j = fs.contents j := by
  have hmeta := writeChunks_meta fs data hlba (by omega) _ le_rfl
  refine Fs.contents_congr (congrFun (hmeta.dir hbase) j) hmeta.base fun a hlo hhi => ?_
  refine (writeChunks_spec hwrap hlba _ le_rfl).1 a ?_
  have hcount : 0 < sectorsFor data.length ∧ 0 < (fs.dir j).extent.count := by
    simp only [sectorsFor, Dirent.extent, sectSize]
    omega
  rcases hapart.pos_le hcount.1 hcount.2 with hle | hle
  · right
    exact le_trans (Nat.mul_le_mul_right _ (Nat.add_le_add_left hle _)) hlo
  left
  exact lt_of_lt_of_le hhi (Nat.mul_le_mul_right _ (Nat.add_le_add_left hle _))

lemma Shows.install (h : Shows fs files) {e : Dirent} {name : List UInt8}
  (hdir : fs'.dir = update fs.dir i e)
  (hcontents : ∀ j, j ≠ i → (fs.dir j).Live → fs'.contents j = fs.contents j)
  (hold : (fs.dir i).Live → cstr (fs.dir i).name = cstr name)
  (hothers : ∀ j, j ≠ i → (fs.dir j).Live → cstr (fs.dir j).name ≠ cstr name)
  (hnew : e.Live → cstr e.name = cstr name ∧ 0 < e.size) : Shows fs' (update files (cstr name)
    (if e.Live then some (fs'.contents i) else none)) := by
  refine ⟨?_, ?_, fun name' => ?_⟩
  · rw [hdir]
    intro j k hj hk heq
    by_cases hij : j = i
    · by_cases hik : k = i
      · rw [hij, hik]
      rw [hij, update_self] at hj heq
      rw [update_of_ne hik] at hk heq
      exact absurd (heq.symm.trans (hnew hj).1) (hothers k hik hk)
    rw [update_of_ne hij] at hj heq
    by_cases hik : k = i
    · rw [hik, update_self] at hk heq
      exact absurd (heq.trans (hnew hk).1) (hothers j hij hj)
    rw [update_of_ne hik] at hk heq
    exact h.unique j k hj hk heq
  · rw [hdir]
    exact (forall_update_iff fs.dir fun _ x => x.Live → 0 < x.size).mpr
      ⟨fun he => (hnew he).2, fun j _ => h.nonempty j⟩
  rw [hdir]
  by_cases heq : cstr name' = cstr name
  · rw [heq, update_self, findName_update (fun j hj hlive => heq ▸ hothers j hj hlive)]
    by_cases he : e.Live
    · simp [he, heq, (hnew he).1]
    · simp [he]
  have hfind := findName_update_of_ne (fun hlive h' => heq (h'.symm.trans (hold hlive)))
      fun he h' => heq (h'.symm.trans (hnew he).1)
  rw [update_of_ne heq, hfind, h.lookup]
  cases hfound : findName fs.dir name' with
  | none => rfl
  | some j =>
    obtain ⟨hlive, hname⟩ := findName_some hfound
    have hij : j ≠ i := by
      rintro rfl
      exact heq (hname.symm.trans (hold hlive))
    exact congrArg some (hcontents j hij hlive).symm

/-! ## Steps that leave the files alone -/

namespace Refines

variable {fs fs' : Fs} {files : FileMap} (h : Refines fs files)
include h

lemma of_meta (hmeta : MetaKept fs fs')
  (hcontents : ∀ i, (fs.dir i).Live → fs'.contents i = fs.contents i) : Refines fs' files where
  healthy := h.healthy.of_meta hmeta
  mounted := by
    rw [hmeta.ram]
    exact h.mounted
  total := by
    rw [hmeta.ram, hmeta.sectors]
    exact h.total
  next := by
    rw [hmeta.ram, hmeta.sectors]
    exact h.next
  shows := h.shows.congr (hmeta.dir h.healthy.volume.base_le) hcontents

lemma of_readOnly (hread : ReadOnly fs fs') : Refines fs' files := by
  refine h.of_meta hread.meta fun i _ => Fs.contents_congr ?_ hread.meta.base fun a _ _ => ?_
  · rw [hread.meta.dir h.healthy.volume.base_le]
  · rw [hread.data]

lemma of_space {ram : Ram} (hspace : SpaceOnly fs.ram ram) (hlayout : Layout ram fs.dir) :
  Refines { fs with ram := ram } files := by
  have hdir := Fs.dir_withRam hspace.base
  refine ⟨h.healthy.withRam hspace.base hlayout, hspace.mounted.trans h.mounted,
    hspace.totalSectors.trans h.total, ?_, h.shows.congr hdir fun i _ => ?_⟩
  · have hnext := hspace.bounded
    rw [h.total] at hnext
    exact hnext.trans (max_le h.next le_rfl)
  · exact Fs.contents_congr (congrFun hdir i) hspace.base fun _ _ _ => rfl

lemma delete (name : List UInt8) :
  Refines (afsDelete fs name).2 (update files (cstr name) none) := by
  have hload := h.healthy.refuses_dir
  have hcounted := h.of_readOnly (ReadOnly.counted fs)
  have hflush := hcounted.healthy.refuses_dir
  have hvolume := h.healthy.volume.delete name fun _ _ _ _ _ _ => hflush
  have hresult := afsDelete_cases h.healthy.volume.layout.dir h.mounted name
  generalize afsDelete fs name = result at hresult hvolume
  obtain ⟨code, fs'⟩ := result
  dsimp only at hresult hvolume ⊢
  cases hresult with
  | unread hrefused => exact absurd (hrefused.symm.trans hload) (by decide)
  | unflushed _ _ hrefused => exact absurd (hrefused.symm.trans hflush) (by decide)
  | missing hnone =>
    have hgone : files (cstr name) = none := by
      rw [h.shows.lookup, hnone]
      rfl
    rw [Function.update_eq_self_iff.mpr hgone.symm]
    exact hcounted
  | @deleted i hfound _ =>
    obtain ⟨hlive, hname⟩ := findName_some hfound
    have hbase : (fs.freed i).ram.base = afsBaseLba := h.healthy.base
    have hsound := h.healthy.volume.layout.dir.entry
    refine ⟨⟨hvolume, h.healthy.fault, h.healthy.small, h.healthy.room, ?_, ?_⟩, h.mounted,
      h.total, h.next, ?_⟩
    · rw [superblock_flushed (by rw [hbase]; decide)]
      exact h.healthy.superblock
    · rw [dir_flushed]
      exact (forall_update_iff fs.dir fun _ x =>
        x.Live → afsBaseLba + x.extent.stop ≤ fs.dev.sectors).mpr
          ⟨fun hzero => absurd hzero not_live_zero, fun j _ => h.healthy.range j⟩
    have hshows := h.shows.install (dir_flushed (fs.freed i) _) (fun j hij hj => ?_)
      (fun _ => hname) (fun j hij hj heq => hij (h.shows.unique j i hj hlive
        (heq.trans hname.symm)))
      (fun hzero => absurd hzero not_live_zero)
    · rwa [if_neg not_live_zero] at hshows
    have hentry : update fs.dir i Dirent.zero j = fs.dir j :=
      update_of_ne hij _ _
    rw [Fs.contents_flushed hbase (by rw [hentry]; exact (hsound j hj).start), hentry]
    rfl

lemma afsRead_eq (name : List UInt8) {buf max : Nat} (hbuf : buf ≠ 0) (hmax : max ≠ 0) :
  ∃ fs', ReadOnly fs fs' ∧ afsRead fs (some name) buf max =
      ((findName fs.dir name).map fun i => bytesAt fs.dev.data (fs.addr (fs.dir i).startLba)
        (min (fs.dir i).size (chunksOf (min max (fs.dir i).size) * chunkSize)), fs') := by
  cases hfound : findName fs.dir name with
  | none => exact ⟨_, afsRead_readOnly fs _ buf max, Prod.ext (afsRead_absent hfound buf max) rfl⟩
  | some i =>
    rw [afsRead_loaded h.mounted hbuf hmax h.healthy.refuses_dir hfound]
    have hrange := h.healthy.range i (findName_some hfound).1
    have hsmall := h.healthy.small
    have hin : fs.counted.ram.base + (fs.dir i).startLba + sectorsFor (fs.dir i).size ≤
        fs.counted.dev.sectors := by
      have hbase : fs.counted.ram.base = afsBaseLba := h.healthy.base
      rw [hbase, Nat.add_assoc]
      exact hrange
    have hfault : ∀ n, fs.counted.dev.fault n = false := h.healthy.fault
    have hsectors : fs.counted.dev.sectors < 2 ^ 31 := hsmall
    obtain ⟨fs', hkept, hread⟩ := readChunks_spec hfault hin (by omega) (chunksOf
      (min max (fs.dir i).size))
      (Nat.div_le_div_right (Nat.add_le_add_right (min_le_right _ _) _))
    exact ⟨fs', (ReadOnly.counted fs).trans hkept, hread⟩

lemma read (name : Option (List UInt8)) (buf max : Nat) :
  Refines (afsRead fs name buf max).2 files := by
  cases name with
  | none => exact h
  | some name =>
    by_cases hargs : buf = 0 ∨ max = 0
    · have hcall : afsRead fs (some name) buf max = (none, fs) := by
        rcases hargs with hargs | hargs <;> simp [afsRead, hargs]
      rw [hcall]
      exact h
    obtain ⟨hbuf, hmax⟩ := not_or.mp hargs
    obtain ⟨fs', hread, hcall⟩ := h.afsRead_eq name hbuf hmax
    rw [hcall]
    exact h.of_readOnly hread

lemma next_lt {bytes : List UInt8} (hargs : Writable fs bytes) :
  fs.ram.nextFreeLba + sectorsFor bytes.length < 2 ^ 32 := by
  have hnext := h.next
  have hsmall := h.healthy.small
  have hlen := hargs.2.2
  simp only [maxSize, sectorsFor, sectSize] at hlen ⊢
  omega

end Refines

/-- `afs_write` is about to enter its loop: the data is to go to `lba`, for entry `i` of the
directory. -/
structure Staged (fs : Fs) (files : FileMap) (name data : List UInt8) (i : Fin afsMaxFiles)
    (lba : Nat) (d : Dir) : Prop where
  refines : Refines fs files
  placed : Placement fs.ram fs.dir name (sectorsFor data.length) i lba d
  nonempty : data.length ≠ 0
  bounded : data.length ≤ maxSize

lemma Refines.staged (h : Refines fs files) {name data : List UInt8} (hargs : Writable fs data)
  {d : Dir} {ram : Ram}
  (hplace : placeFile fs.ram fs.dir name (sectorsFor data.length) = (some (lba, d), ram)) :
  ∃ i, Staged { fs.counted with ram := ram } files name data i lba d := by
  obtain ⟨hspace, hlayout, ⟨i, hi⟩, _⟩ := h.healthy.volume.staged h.mounted (h.next_lt hargs) hplace
  have hbase : ram.base = fs.counted.ram.base := hspace.base
  refine ⟨i, (h.of_readOnly (ReadOnly.counted fs)).of_space hspace hlayout, ?_, hargs.2.1,
    hargs.2.2⟩
  rw [Fs.dir_withRam hbase]
  exact hi

namespace Staged

variable {fs fs' : Fs} {files : FileMap} {name data : List UInt8} {i : Fin afsMaxFiles}
  {lba : Nat} {d : Dir}

variable (h : Staged fs files name data i lba d)
include h

lemma layout : Layout fs.ram fs.dir :=
  h.refines.healthy.volume.layout

lemma start : 2 ≤ lba := (h.placed.bounds h.layout).1

lemma wrap : fs.ram.base + lba + sectorsFor data.length < 2 ^ 32 := by
  have hstop := h.placed.stop_le h.layout h.refines.mounted
  have hnext := h.refines.next
  have hsmall := h.refines.healthy.small
  rw [h.refines.healthy.base]
  simp only [afsBaseLba]
  omega

lemma metaKept : MetaKept fs (writeChunks fs lba data (chunksOf data.length)).2 :=
  writeChunks_meta fs data h.start (h.placed.bounds h.layout).2 _ le_rfl

/-- The loop leaves the other files alone. -/
lemma contents {j : Fin afsMaxFiles} (hlive : (fs.dir j).Live)
  (hapart : Extent.Apart ⟨lba, sectorsFor data.length⟩ (fs.dir j).extent) :
  (writeChunks fs lba data (chunksOf data.length)).2.contents j = fs.contents j :=
  writeChunks_contents h.refines.healthy.volume.base_le h.wrap h.start h.nonempty
    (h.refines.shows.nonempty j hlive) hapart

lemma inPlace_ok (hfound : findName fs.dir name = some i) (hlba : (fs.dir i).startLba = lba)
  (hn : sectorsFor data.length ≤ (fs.dir i).extent.count) :
  (writeChunks fs lba data (chunksOf data.length)).1 = true := by
  have hrange := h.refines.healthy.range i (findName_some hfound).1
  refine writeChunks_ok h.refines.healthy.fault h.start ?_ h.wrap _ le_rfl
  rw [h.refines.healthy.base, Nat.add_assoc, ← hlba]
  exact le_trans (Nat.add_le_add_left (Nat.add_le_add_left hn _) _) hrange

lemma unwritten (hfailed : (writeChunks fs lba data (chunksOf data.length)).1 = false ∨
    findName d name = none) : Refines (writeChunks fs lba data (chunksOf data.length)).2 files := by
  have hreserved : Reserved fs.ram fs.dir ⟨lba, sectorsFor data.length⟩ := by
    have hplaced := h.placed
    cases hplaced with
    | inPlace hfound hlba hn =>
      rcases hfailed with hfailed | hnone
      · exact absurd (hfailed.symm.trans (h.inPlace_ok hfound hlba hn)) (by decide)
      · exact absurd (hfound.symm.trans hnone) (by simp)
    | moved _ hres => exact hres
    | created _ _ hres => exact hres
  exact h.refines.of_meta h.metaKept fun j hj => h.contents hj (hreserved.live j hj)

lemma names : ((fs.dir i).Live → cstr (fs.dir i).name = cstr name) ∧
    ∀ j, j ≠ i → (fs.dir j).Live → cstr (fs.dir j).name ≠ cstr name := by
  have hkept : findName fs.dir name = some i →
      ((fs.dir i).Live → cstr (fs.dir i).name = cstr name) ∧
        ∀ j, j ≠ i → (fs.dir j).Live → cstr (fs.dir j).name ≠ cstr name := by
    intro hfound
    obtain ⟨hlive, hname⟩ := findName_some hfound
    exact ⟨fun _ => hname, fun j hij hj heq =>
      hij (h.refines.shows.unique j i hj hlive (heq.trans hname.symm))⟩
  have hplaced := h.placed
  cases hplaced with
  | inPlace hfound => exact hkept hfound
  | moved hfound => exact hkept hfound
  | created hnone hfree =>
    exact ⟨fun hlive => absurd hlive hfree, fun j _ hj => findName_none hnone hj⟩

/-- A write that is carried through: the file of the name holds the data. -/
lemma written (hloop : writeChunks fs lba data (chunksOf data.length) = (true, fs'))
  (hfound : findName d name = some i) : Refines (fs'.stored afsDirLba
    (dirEncode (update d i ((d i).setSize data.length))) 1)
    (update files (cstr name) (some data)) := by
  have hmeta := h.metaKept
  have hspec := (writeChunks_spec h.wrap h.start _ le_rfl).2
  have hin := writeChunks_range h.wrap h.start h.nonempty
  have hframe := fun j => h.contents (j := j)
  rw [hloop] at hmeta hspec hin hframe
  have hhealthy := h.refines.healthy.of_meta hmeta
  have hdir := hmeta.dir h.refines.healthy.volume.base_le
  have hfits := h.placed.fits h.layout h.bounded rfl
  have hextent := h.placed.extent_eq h.layout h.bounded rfl
  have hname : cstr ((d i).setSize data.length).name = cstr name := (findName_some hfound).2
  have hstart : ((d i).setSize data.length).startLba = lba := h.placed.startLba_eq h.layout
  have hsize := size_setSize (d i) h.bounded
  rw [h.placed.update_eq]
  generalize (d i).setSize data.length = e at hfits hextent hname hstart hsize ⊢
  have hlive : e.Live := by
    have hlo := h.start
    rw [Dirent.Live, hstart]
    omega
  refine ⟨hhealthy.flushed ?_ ?_, ?_, ?_, ?_, ?_⟩
  · exact (h.layout.install i fun _ => hfits).congr (by rw [hmeta.ram]) (by rw [hmeta.ram])
      (by rw [hmeta.ram])
  · rw [hmeta.sectors]
    refine (forall_update_iff fs.dir fun _ x =>
      x.Live → afsBaseLba + x.extent.stop ≤ fs.dev.sectors).mpr
        ⟨fun _ => ?_, fun j _ => h.refines.healthy.range j⟩
    rw [hextent, Extent.stop, ← Nat.add_assoc, ← h.refines.healthy.base]
    exact hin rfl
  · change fs'.ram.mounted = true
    rw [hmeta.ram]
    exact h.refines.mounted
  · change fs'.ram.totalSectors = fs'.dev.sectors
    rw [hmeta.ram, hmeta.sectors]
    exact h.refines.total
  · change fs'.ram.nextFreeLba ≤ fs'.dev.sectors
    rw [hmeta.ram, hmeta.sectors]
    exact h.refines.next
  have hshows := h.refines.shows.install (dir_flushed fs' (update fs.dir i e))
    (fun j hij hj => ?_) h.names.1 h.names.2
    (fun _ => ⟨hname, by rw [hsize]; exact Nat.pos_of_ne_zero h.nonempty⟩)
  · have haddr : fs'.addr lba = fs.addr lba := by rw [Fs.addr, Fs.addr, hmeta.base]
    have hall : data.length ≤ chunksOf data.length * chunkSize := by
      simp only [chunksOf, chunkSize]
      omega
    rw [if_pos hlive, Fs.contents_flushed hhealthy.base
      (by rw [update_self]; exact hfits.sound.start),
      update_self, hstart, hsize, haddr,
      bytesAt_eq_of_getD fun j hj => hspec rfl j hj (hj.trans_le hall)] at hshows
    exact hshows
  have hentry : update fs.dir i e j = fs.dir j := update_of_ne hij _ _
  have hsame : fs'.contents j = fs.contents j := by
    refine hframe j hj ?_
    rw [← hextent]
    exact hfits.live j hij hj
  rw [Fs.contents_flushed hhealthy.base (by rw [hentry]; exact (h.layout.dir.entry j hj).start),
    hentry, ← hsame, Fs.contents, hdir]

end Staged

lemma FileMap.wrote_some (files : FileMap) (name : List UInt8) (data : Option (List UInt8))
  {len : Nat} (hlen : len ≠ 0) :
  files.wrote (some name) data (some len) = update files (cstr name) data := by
  obtain ⟨n, rfl⟩ := Nat.exists_eq_succ_of_ne_zero hlen
  rfl

namespace Refines

variable {fs : Fs} {files : FileMap}

lemma write (h : Refines fs files) (name data : Option (List UInt8)) :
  Refines (afsWrite fs name data).2 (files.wrote name data (afsWrite fs name data).1) := by
  rcases afsWrite_cases fs name data with heq | ⟨name, bytes, rfl, rfl, hargs, hresult⟩
  · rw [heq]
    exact h
  generalize afsWrite fs (some name) (some bytes) = result at hresult
  obtain ⟨code, fs'⟩ := result
  cases hresult with
  | unread hrefused =>
    exact absurd (hrefused.symm.trans h.healthy.refuses_dir) (by decide)
  | noRoom hplace =>
    obtain ⟨hspace, hlayout, _⟩ :=
      placeFile_spec name h.healthy.volume.layout h.mounted (h.next_lt hargs)
    rw [hplace] at hspace hlayout
    exact (h.of_readOnly (ReadOnly.counted fs)).of_space hspace hlayout
  | broken hplace hloop =>
    obtain ⟨i, hstaged⟩ := h.staged hargs hplace
    have hkept := hstaged.unwritten (.inl (by rw [hloop]))
    rwa [hloop] at hkept
  | nameless hplace hloop hnone =>
    obtain ⟨i, hstaged⟩ := h.staged hargs hplace
    have hkept := hstaged.unwritten (.inr hnone)
    rwa [hloop] at hkept
  | unflushed hplace hloop hrefused =>
    obtain ⟨i, hstaged⟩ := h.staged hargs hplace
    have hmeta := hstaged.metaKept
    rw [hloop] at hmeta
    have hok := (hstaged.refines.healthy.of_meta hmeta).refuses_dir
    exact absurd (hrefused.symm.trans hok) (by decide)
  | @written lba d ram fs' j hplace hloop hfound =>
    obtain ⟨i, hstaged⟩ := h.staged hargs hplace
    -- The entry found again is the one the data was placed for.
    obtain rfl : i = j := by
      have hagain := hstaged.placed.findName_eq hstaged.layout
      rw [hfound] at hagain
      split_ifs at hagain
      exact (some.inj hagain).symm
    rw [FileMap.wrote_some _ _ _ hargs.2.1]
    exact hstaged.written hloop hfound

lemma reboot (h : Refines fs files) (hok : (afsMount fs.restarted).1 = true) :
  Refines (afsMount fs.restarted).2 files := by
  have hbase : Ram.boot.base = fs.ram.base := h.healthy.base.symm
  have hboot : Layout Ram.boot fs.dir :=
    ⟨h.healthy.volume.layout.dir, by simp [Ram.boot], by simp [Ram.boot], by simp [Ram.boot],
      by simp [Ram.boot], by simp [Ram.boot]⟩
  have hhealthy : Healthy fs.restarted := h.healthy.withRam hbase hboot
  have hread := (hhealthy.of_meta (MetaKept.counted _)).refuses_dir
  have hvolume := hhealthy.volume.mount
    (fun _ hrefused => absurd (hrefused.symm.trans hread) (by decide))
    (fun _ e he => by simp [Fs.restarted, Ram.boot] at he)
  rcases afsMount_cases fs.restarted with ⟨_, hfailed, _⟩ | ⟨_, iobuf, hcall⟩
  · exact absurd (hfailed.symm.trans hok) (by decide)
  rw [hcall] at hvolume ⊢
  have hstart : fs.restarted.superblock.dataStartLba = 2 := by
    rw [hhealthy.superblock]
    rfl
  have hnext : fs.restarted.resumed ≤ fs.dev.sectors := by
    obtain ⟨_, _, hcase⟩ := resumeLba_spec hhealthy.volume.layout.dir 2
    have hroom := h.healthy.room
    rw [Fs.resumed, hread, if_neg Bool.false_ne_true, hstart]
    rcases hcase with hcase | ⟨i, hlive, hcase⟩
    · omega
    rw [hcase]
    exact le_trans (Nat.le_add_left _ _) (hhealthy.range i hlive)
  have htotal : fs.restarted.superblock.totalSectors = fs.dev.sectors := by
    rw [hhealthy.superblock]
    exact u32_of_lt (h.healthy.small.trans (by decide))
  have hdir := Fs.dir_withRam hbase
  have hshows := h.shows.congr hdir fun i _ =>
    Fs.contents_congr (congrFun hdir i) hbase fun _ _ _ => rfl
  exact ⟨⟨hvolume, h.healthy.fault, h.healthy.small, h.healthy.room, hhealthy.superblock,
    hhealthy.range⟩, rfl, htotal, hnext, hshows.congr rfl fun _ _ => rfl⟩

lemma of_format {fs' : Fs} (hram : fs.ram = Ram.boot) (hfault : ∀ n, fs.dev.fault n = false)
  (hsmall : fs.dev.sectors < 2 ^ 31) (hok : afsFormat fs = (true, fs')) :
  Refines fs' fun _ => none := by
  obtain ⟨rfl, hin⟩ := afsFormat_some hok
  have hbase : fs.ram.base = afsBaseLba := by
    rw [hram]
    rfl
  rw [phys_dir hbase] at hin
  have hfree : fs.ram.freeExtents = [] := by
    rw [hram]
    rfl
  have hsb := Fs.superblock_formatted (by rw [hbase]; decide)
  have hnone := fs.not_live_formatted
  have htotal : u32 fs.dev.sectors = fs.dev.sectors := u32_of_lt (by omega)
  refine ⟨⟨VolumeInv.formatted hbase hfree, hfault, hsmall, hin, hsb,
    fun i hlive => absurd hlive (hnone i)⟩, rfl, htotal, ?_,
    ⟨fun i _ hlive => absurd hlive (hnone i), fun i hlive => absurd hlive (hnone i),
      fun name => ?_⟩⟩
  · change 2 ≤ fs.dev.sectors
    omega
  cases hfound : findName fs.formatted.dir name with
  | none => rfl
  | some i => exact absurd (findName_some hfound).1 (hnone i)

end Refines

lemma refines_of_reachable {s : FileState} (hs : fileMachine.Reachable s) :
  Refines s.fs s.files := by
  refine hs.invariant (fun s => Refines s.fs s.files) ?_ ?_
  · rintro ⟨_, _⟩ ⟨fs, hram, hfault, hsmall, hok, rfl⟩
    exact Refines.of_format hram hfault hsmall hok
  rintro s e h henabled
  cases e with
  | write name data => exact h.write name data
  | delete name => exact h.delete name
  | read name buf max => exact h.read name buf max
  | reboot => exact h.reboot henabled

/-- In every state reached, a read of a name gives the bytes of the last write that
succeeded, and fails if there is none or the name was deleted since. -/
theorem read_gives_last_write {s : FileState} (hs : fileMachine.Reachable s) (name : List UInt8)
  (buf max : Nat) :
  (s.files (cstr name) = none → (afsRead s.fs (some name) buf max).1 = none) ∧
  ∀ bytes, s.files (cstr name) = some bytes → buf ≠ 0 → bytes.length ≤ max →
    (afsRead s.fs (some name) buf max).1 = some bytes := by
  have h := refines_of_reachable hs
  by_cases hargs : buf = 0 ∨ max = 0
  · have hcall : (afsRead s.fs (some name) buf max).1 = none := by
      rcases hargs with hargs | hargs <;> simp [afsRead, hargs]
    refine ⟨fun _ => hcall, fun bytes hbytes hbuf hmax => ?_⟩
    -- A stored file is not empty.
    rw [h.shows.lookup] at hbytes
    obtain ⟨i, hfound, rfl⟩ := map_eq_some_iff.mp hbytes
    have hpos := h.shows.nonempty i (findName_some hfound).1
    rw [Fs.contents, length_bytesAt] at hmax
    omega
  obtain ⟨hbuf, hmax⟩ := not_or.mp hargs
  obtain ⟨_, _, hcall⟩ := h.afsRead_eq name hbuf hmax
  rw [h.shows.lookup, hcall]
  cases hfound : findName s.fs.dir name with
  | none => exact ⟨fun _ => rfl, fun bytes hbytes => by cases hbytes⟩
  | some i =>
    refine ⟨fun hnone => (by cases hnone), fun bytes hbytes _ hlen => ?_⟩
    obtain rfl : s.fs.contents i = bytes := some.inj hbytes
    rw [Fs.contents, length_bytesAt] at hlen
    have hall : (s.fs.dir i).size ≤ chunksOf (s.fs.dir i).size * chunkSize := by
      simp only [chunksOf, chunkSize]
      omega
    rw [map_some, min_eq_right hlen, min_eq_left hall]
    rfl

/-- A file of two bytes, read after a reboot. -/
theorem read_gives_last_write_rebooted : ∃ s, fileMachine.Reachable s ∧
  s.files [97] = some [7, 8] ∧ (afsRead s.fs (some [97]) 1 2).1 = some [7, 8] := by
  have hinit : fileMachine.init ⟨(afsFormat blankFs).2, fun _ => none⟩ :=
    ⟨blankFs, rfl, fun _ => rfl, by decide, Prod.ext (by decide +kernel) rfl, rfl⟩
  have hwrite := (Machine.reachable_of_init hinit).step
    (e := FileEvent.write (some [97]) (some [7, 8])) trivial
  have hreboot := hwrite.step (e := FileEvent.reboot) (by
    change (afsMount (afsWrite (afsFormat blankFs).2 (some [97]) (some [7, 8])).2.restarted).1 =
      true
    decide +kernel)
  refine ⟨_, hreboot, ?_⟩
  have hfile : FileMap.wrote (fun _ => none) (some [97]) (some [7, 8])
      (afsWrite (afsFormat blankFs).2 (some [97]) (some [7, 8])).1 [97] = some [7, 8] := by
    decide +kernel
  exact ⟨hfile, (read_gives_last_write hreboot [97] 1 2).2 [7, 8] hfile (by decide) (by decide)⟩

end Aeos.Afs
