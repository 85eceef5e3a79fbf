/-
# Formats and mounts within one boot

`afs_format` and `afs_mount` rebuild the superblock, the directory and the bump pointer.
-/

import Aeos.Afs.Faults

namespace Aeos.Afs

open Lib

inductive VolumeEvent
  | mount
  | format
  | write (name data : Option (List UInt8))
  | read (name : Option (List UInt8)) (buf max : Nat)
  | delete (name : List UInt8)

def volumeReact (fs : Fs) : VolumeEvent → Fs
  | .mount => (afsMount fs).2
  | .format => (afsFormat fs).2
  | .write name data => (afsWrite fs name data).2
  | .read name buf max => (afsRead fs name buf max).2
  | .delete name => (afsDelete fs name).2

/-- Any sequence of calls after boot, whatever the disk holds and whichever requests
fail. -/
def volumeMachine : Machine Fs VolumeEvent where
  init fs := fs.ram = Ram.boot
  enabled _ _ := True
  step := volumeReact

/-! ### What calls leave alone -/

def Ram.volume (ram : Ram) : Bool × Nat × Nat × Nat :=
  (ram.mounted, ram.totalSectors, ram.dataLba, ram.base)

def Fs.volume (fs : Fs) : (Bool × Nat × Nat × Nat) × Nat := (fs.ram.volume, fs.dev.sectors)

section
variable {fs fs' : Fs}

section
variable (h : fs'.volume = fs.volume)
include h

lemma mounted_of_volume : fs'.ram.mounted = fs.ram.mounted :=
  congrArg (fun v => v.1.1) h

lemma dataLba_of_volume : fs'.ram.dataLba = fs.ram.dataLba :=
  congrArg (fun v => v.1.2.2.1) h

lemma base_of_volume : fs'.ram.base = fs.ram.base :=
  congrArg (fun v => v.1.2.2.2) h

lemma sectors_of_volume : fs'.dev.sectors = fs.dev.sectors :=
  congrArg Prod.snd h

end

lemma volume_of_meta (h : MetaKept fs fs') : fs'.volume = fs.volume := by
  rw [Fs.volume, h.ram, h.sectors]
  rfl

variable (fs)

lemma wrSectors_volume (lba : Nat) (buf : Nat → UInt8) (n : Nat) :
  (wrSectors fs lba buf n).2.volume = fs.volume := by
  simp only [wrSectors, vblkWrite]
  split_ifs <;> rfl

lemma allocSectors_volume (ram : Ram) (n : Nat) : (allocSectors ram n).2.volume = ram.volume := by
  unfold allocSectors
  dsimp only
  split_ifs <;> rfl

lemma placeFile_volume (ram : Ram) (d : Dir) (name : List UInt8) (n : Nat) :
  (placeFile ram d name n).2.volume = ram.volume := by
  have halloc := allocSectors_volume ram n
  simp only [placeFile]
  split
  · rfl
  split
  · rfl
  rcases hcall : allocSectors ram n with ⟨got, ram'⟩
  rw [hcall] at halloc
  cases got <;> exact halloc

lemma writeChunks_volume (lba : Nat) (data : List UInt8) (n : Nat) :
  (writeChunks fs lba data n).2.volume = fs.volume := by
  induction n with
  | zero => rfl
  | succ n ih =>
    rw [writeChunks]
    rcases hloop : writeChunks fs lba data n with ⟨ok, fs₁⟩
    rw [hloop] at ih
    cases ok with
    | false => exact ih
    | true => exact (wrSectors_volume _ _ _ _).trans ih

lemma afsWrite_volume (name data : Option (List UInt8)) :
  (afsWrite fs name data).2.volume = fs.volume := by
  rcases afsWrite_cases fs name data with heq | ⟨name, bytes, rfl, rfl, _, hresult⟩
  · rw [heq]
  have hplaced := placeFile_volume fs.ram fs.dir name (sectorsFor bytes.length)
  have hstart : ∀ {placed ram},
      placeFile fs.ram fs.dir name (sectorsFor bytes.length) = (placed, ram) →
      Fs.volume { fs.counted with ram := ram } = fs.volume := by
    intro placed ram hplace
    rw [hplace] at hplaced
    exact congrArg (fun v => (v, fs.dev.sectors)) hplaced
  have hloop : ∀ {ok placed ram lba fs'},
      placeFile fs.ram fs.dir name (sectorsFor bytes.length) = (placed, ram) →
      writeChunks { fs.counted with ram := ram } lba bytes (chunksOf bytes.length) = (ok, fs') →
      fs'.volume = fs.volume := by
    intro ok placed ram lba fs' hplace hdone
    have hsame := writeChunks_volume { fs.counted with ram := ram } lba bytes
      (chunksOf bytes.length)
    rw [hdone] at hsame
    exact hsame.trans (hstart hplace)
  generalize afsWrite fs (some name) (some bytes) = result at hresult
  obtain ⟨code, fs'⟩ := result
  cases hresult with
  | unread => rfl
  | noRoom hplace => exact hstart hplace
  | broken hplace hdone | nameless hplace hdone => exact hloop hplace hdone
  | unflushed hplace hdone | written hplace hdone =>
    have hkept := hloop hplace hdone
    exact hkept

lemma afsDelete_volume (name : List UInt8) : (afsDelete fs name).2.volume = fs.volume := by
  have hload := volume_of_meta (dirLoad_readOnly fs).meta
  simp only [afsDelete]
  split_ifs
  · rfl
  rcases hdir : dirLoad fs with ⟨d, fs₁⟩
  rw [hdir] at hload
  cases d with
  | none => exact hload
  | some d =>
    dsimp only
    split
    · exact hload
    · exact (wrSectors_volume _ _ _ _).trans hload

end

lemma volumeReact_base (fs : Fs) (e : VolumeEvent) (hbase : fs.ram.base + 2 ≤ 2 ^ 32) :
  (volumeReact fs e).ram.base = fs.ram.base ∧ (volumeReact fs e).dev.sectors = fs.dev.sectors := by
  have hkept : ∀ {fs' : Fs}, fs'.volume = fs.volume →
      fs'.ram.base = fs.ram.base ∧ fs'.dev.sectors = fs.dev.sectors :=
    fun h => ⟨base_of_volume h, sectors_of_volume h⟩
  cases e with
  | mount =>
    show (afsMount fs).2.ram.base = _ ∧ (afsMount fs).2.dev.sectors = _
    rcases afsMount_cases fs with ⟨_, _, hmeta⟩ | ⟨_, iobuf, hcall⟩
    · exact hkept (volume_of_meta hmeta)
    rw [hcall]
    exact ⟨rfl, rfl⟩
  | format =>
    show (afsFormat fs).2.ram.base = _ ∧ (afsFormat fs).2.dev.sectors = _
    rcases afsFormat_cases hbase with ⟨_, ⟨iobuf, hram⟩, hsectors, _⟩ | ⟨hcall, _⟩
    · exact ⟨by rw [hram], hsectors⟩
    rw [hcall]
    exact ⟨rfl, rfl⟩
  | write name data => exact hkept (afsWrite_volume fs name data)
  | read name buf max => exact hkept (volume_of_meta (afsRead_readOnly fs name buf max).meta)
  | delete name => exact hkept (afsDelete_volume fs name)

variable {fs : Fs}

lemma base_of_reachable (hfs : volumeMachine.Reachable fs) : fs.ram.base = afsBaseLba := by
  refine hfs.invariant (fun fs => fs.ram.base = afsBaseLba) ?_ ?_
  · intro fs hinit
    rw [show fs.ram = Ram.boot from hinit]
    rfl
  intro fs e hbase _
  exact (volumeReact_base fs e (by rw [hbase]; decide)).1.trans hbase

/-- The two calls that make or find a volume. -/
inductive Remount
  | format
  | mount

def Remount.call : Remount → Fs → Bool × Fs
  | .format => afsFormat
  | .mount => afsMount

/-- What is on the free list fits the volume: for a format nothing; for a mount, extents that
share no sector with each other or with a file and do not end above every file. -/
def Remount.Clean (fs : Fs) : Remount → Prop
  | .format => fs.ram.freeExtents = []
  | .mount => fs.superblock.dataStartLba = 2 ∧ SoundDir fs.dir ∧
      (fs.counted.refuses afsDirLba 1 = true → ∀ i, ¬ (fs.dir i).Live) ∧
      fs.ram.freeExtents.Pairwise Extent.Apart ∧
      ∀ e ∈ fs.ram.freeExtents, 2 ≤ e.start ∧
        (∃ i, (fs.dir i).Live ∧ e.stop ≤ (fs.dir i).extent.stop) ∧
        ∀ i, (fs.dir i).Live → (fs.dir i).extent.Apart e

structure Settled (fs : Fs) : Prop where
  volume : VolumeInv fs
  mounted : fs.ram.mounted = true
  dataLba : fs.ram.dataLba = 2

lemma Settled.of_remount {fs' : Fs} {how : Remount} (hbase : fs.ram.base = afsBaseLba)
  (hclean : how.Clean fs) (hok : how.call fs = (true, fs')) : Settled fs' := by
  cases how with
  | format =>
    obtain ⟨rfl, _⟩ := afsFormat_some hok
    exact ⟨VolumeInv.formatted hbase hclean, rfl, rfl⟩
  | mount =>
    obtain ⟨hstart, hdir, hread, hapart, hfree⟩ := hclean
    have hstop : ∀ e ∈ fs.ram.freeExtents, e.stop < 2 ^ 32 := by
      intro e he
      obtain ⟨_, ⟨i, hi, hle⟩, _⟩ := hfree e he
      exact hle.trans_lt (hdir.entry i hi).stop
    have hlayout : Layout { fs.ram with mounted := false } fs.dir :=
      ⟨hdir, fun e he => (hfree e he).1, hstop, hapart, fun i hi e he => (hfree e he).2.2 i hi,
        fun hmounted => by cases hmounted⟩
    have hvolume := VolumeInv.resumed hbase hlayout hstart.ge hread
      (fun e he => .inr (hfree e he).2.1) (congrArg Prod.fst hok)
    rw [show afsMount fs = (true, fs') from hok] at hvolume
    rcases afsMount_cases fs with ⟨_, hfailed, _⟩ | ⟨_, iobuf, hfound⟩
    · exact absurd (hfailed.symm.trans (congrArg Prod.fst hok)) Bool.false_ne_true
    obtain rfl := (Prod.mk.inj (hfound.symm.trans hok)).2
    exact ⟨hvolume, rfl, hstart⟩

inductive CallEvent
  | write (name data : Option (List UInt8))
  | delete (name : List UInt8)

def callReact (fs : Fs) : CallEvent → Fs
  | .write name data => (afsWrite fs name data).2
  | .delete name => (afsDelete fs name).2

def callMachine (start : Fs → Prop) : Machine Fs CallEvent where
  init := start
  enabled _ _ := True
  step := callReact

/-- A delete gets its directory written, and the bump pointer does not wrap. -/
def callGuard (fs : Fs) : CallEvent → Prop
  | .write _ data => ∀ bytes, data = some bytes → Writable fs bytes →
      fs.ram.nextFreeLba + sectorsFor bytes.length < 2 ^ 32
  | .delete _ => fs.refuses afsDirLba 1 = false → fs.counted.refuses afsDirLba 1 = false

lemma Settled.step (h : Settled fs) (e : CallEvent) (hguard : callGuard fs e) :
  Settled (callReact fs e) := by
  have hkept : ∀ {fs' : Fs}, fs'.volume = fs.volume →
      fs'.ram.mounted = true ∧ fs'.ram.dataLba = 2 :=
    fun hsame => ⟨(mounted_of_volume hsame).trans h.mounted,
      (dataLba_of_volume hsame).trans h.dataLba⟩
  cases e with
  | write name data =>
    obtain ⟨hmounted, hdata⟩ := hkept (afsWrite_volume fs name data)
    exact ⟨h.volume.write name data hguard, hmounted, hdata⟩
  | delete name =>
    obtain ⟨hmounted, hdata⟩ := hkept (afsDelete_volume fs name)
    exact ⟨h.volume.delete name fun _ hload _ _ _ _ => hguard hload, hmounted, hdata⟩

/-- No sector belongs to two files, and the free list lies below the bump pointer, outside every
file. -/
structure Tidy (fs : Fs) : Prop where
  files : ∀ i j, i ≠ j → (fs.dir i).Live → (fs.dir j).Live →
    (fs.dir i).extent.Apart (fs.dir j).extent
  within : ∀ e ∈ fs.ram.freeExtents, fs.ram.dataLba ≤ e.start ∧ e.stop ≤ fs.ram.nextFreeLba
  outside : ∀ e ∈ fs.ram.freeExtents, ∀ i, (fs.dir i).Live → (fs.dir i).extent.Apart e

lemma Settled.tidy (h : Settled fs) : Tidy fs where
  files := h.volume.layout.dir.apart
  within e he := by
    rw [h.dataLba]
    exact ⟨h.volume.layout.freeStart e he, (h.volume.layout.next h.mounted).2.2.2 e he⟩
  outside e he i hi := h.volume.layout.mixed i hi e he

/-- From every reachable state, a format or mount that succeeds and meets the condition leaves an
allocator that stays sound along every run of later writes and deletes. -/
theorem allocator_sound_after_remount {fs₀ fs₁ fs : Fs} {how : Remount} {es : List CallEvent}
  (hreach : volumeMachine.Reachable fs₀) (hclean : how.Clean fs₀)
  (hok : how.call fs₀ = (true, fs₁))
  (hrun : ((callMachine fun _ => True).restrict callGuard).Run fs₁ es fs) : Tidy fs := by
  have hfirst : Settled fs₁ := Settled.of_remount (base_of_reachable hreach) hclean hok
  refine Settled.tidy (hrun.invariant Settled ?_ hfirst)
  intro fs e h henabled
  exact h.step e henabled.2

def oneFile : Fs :=
  [VolumeEvent.format, .write (some [97]) (some [1])].foldl volumeReact blankFs

def oneFreed : Fs := volumeReact oneFile (.delete [97])

def twoWrites : List CallEvent :=
  [.write (some [98]) (some (List.replicate 513 1)), .write (some [99]) (some [2])]

lemma oneFile_reachable : volumeMachine.Reachable oneFile :=
  ⟨blankFs, _, rfl, Machine.run_foldl (fun _ _ => trivial) _ _⟩

/-- A format while the free list is empty, and a later write. -/
theorem allocator_sound_after_reformat : ∃ fs, Tidy fs ∧ (afsFormat oneFile).2.ram.mounted = true ∧
  fs = callReact (afsFormat oneFile).2 (.write (some [98]) (some [2])) ∧
    fs.ram.nextFreeLba = 3 := by
  have hrun : ((callMachine fun _ => True).restrict callGuard).Run (afsFormat oneFile).2
      [.write (some [98]) (some [2])]
      (callReact (afsFormat oneFile).2 (.write (some [98]) (some [2]))) := by
    refine .cons ⟨trivial, ?_⟩ (.nil _)
    intro bytes hbytes _
    cases hbytes
    decide +kernel
  have hclean : Remount.format.Clean oneFile := by
    show oneFile.ram.freeExtents = []
    decide +kernel
  have hok : Remount.format.call oneFile = (true, (afsFormat oneFile).2) :=
    Prod.ext (by decide +kernel) rfl
  exact ⟨_, allocator_sound_after_remount oneFile_reachable hclean hok hrun, by decide +kernel, rfl,
    by decide +kernel⟩

/-- A file is deleted and the volume formatted again: the freed sector stays on the
list and is handed out although the bump pointer has passed it again. -/
theorem reformat_shares_sector : ∃ fs₀ fs₁ fs es, volumeMachine.Reachable fs₀ ∧
  (∀ n, fs₀.dev.fault n = false) ∧ afsFormat fs₀ = (true, fs₁) ∧
  (callMachine fun _ => True).Run fs₁ es fs ∧
  ∃ i j, i ≠ j ∧ (fs.dir i).Live ∧ (fs.dir j).Live ∧
    ∃ s, (fs.dir i).extent.Has s ∧ (fs.dir j).extent.Has s := by
  have hreach := oneFile_reachable.step (e := VolumeEvent.delete [97]) trivial
  refine ⟨oneFreed, (afsFormat oneFreed).2, twoWrites.foldl callReact (afsFormat oneFreed).2,
    twoWrites, hreach, fun n => ?_, Prod.ext (by decide +kernel) rfl,
    Machine.run_foldl (fun _ _ => trivial) _ _, ⟨0, by decide⟩, ⟨1, by decide⟩, by decide,
    by decide +kernel, by decide +kernel, 2, ?_, ?_⟩
  · rfl
  · exact ⟨by decide +kernel, by decide +kernel⟩
  · exact ⟨by decide +kernel, by decide +kernel⟩

end Aeos.Afs
