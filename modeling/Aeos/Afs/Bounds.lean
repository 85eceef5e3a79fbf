/-
# Requests past the end of the disk

`afs_write` compares the end of a new extent with the size of the whole disk, but the
volume starts at sector 8192 of it, so the last 8192 sectors it hands out do not exist.
-/

import Aeos.Afs.Places
import Aeos.Afs.Requests

namespace Aeos.Afs

open Lib LogM

def Request.Within (sectors : Nat) (r : Request) : Prop := r.lba + r.count ≤ sectors

def OnDisk (sectors : Nat) (e : Extent) : Prop := 2 ≤ e.start ∧ afsBaseLba + e.stop ≤ sectors

variable {sectors : Nat}

lemma OnDisk.allowed (hsmall : sectors < 2 ^ 32 + 7) : Allowed (OnDisk sectors) where
  part he hstart hstop := ⟨he.1.trans hstart, (Nat.add_le_add_left hstop _).trans he.2⟩
  start he := he.1
  stop he := by
    have hend := he.2
    simp only [afsBaseLba] at hend
    omega

def Dir.Within (d : Dir) (sectors : Nat) : Prop :=
  ∀ i, (d i).Live → 2 ≤ (d i).startLba ∧ afsBaseLba + (d i).extent.stop ≤ sectors

structure Inside (fs : Fs) : Prop where
  base : fs.ram.base = afsBaseLba
  small : fs.dev.sectors < 2 ^ 32 + 7
  free : ∀ e ∈ fs.ram.freeExtents, 2 ≤ e.start ∧ afsBaseLba + e.stop ≤ fs.dev.sectors
  mounted : fs.ram.mounted = true → afsBaseLba + 2 ≤ fs.dev.sectors ∧ 2 ≤ fs.ram.nextFreeLba ∧
    Dir.Within fs.dir fs.dev.sectors

/-- A call that stays on the disk. Names without a NUL, which only a mount can bring in, are
excluded because `fname_eq` reads on past them. -/
def rangeGuard (fs : Fs) : VolumeEvent → Prop
  | .mount => (fs.dev.sectors = 0 ∨ afsBaseLba + 2 ≤ fs.dev.sectors) ∧
      (fs.Mountable → NamesEnd fs.dir ∧ 2 ≤ fs.superblock.dataStartLba ∧
        Dir.Within fs.dir fs.dev.sectors)
  | .format => fs.dev.sectors = 0 ∨ afsBaseLba + 2 ≤ fs.dev.sectors
  | .write name data => ∀ name' bytes, name = some name' → data = some bytes →
      Writable fs bytes → Bumps fs name' (sectorsFor bytes.length) →
      afsBaseLba + fs.ram.nextFreeLba + sectorsFor bytes.length ≤ fs.dev.sectors
  | .read _ _ _ => True
  | .delete _ => True

lemma chunk_within {base lba len k : Nat} (hk : k < chunksOf len)
  (hin : base + lba + sectorsFor len ≤ sectors) :
  Request.Within sectors ⟨u32 (base + u32 (lba + 8 * k)), sectorsFor (chunkLen len k)⟩ := by
  obtain ⟨_, _, hle⟩ := chunk_sectors (lt_chunksOf_iff.mp hk)
  have hinner := u32_le (lba + 8 * k)
  have houter := u32_le (base + u32 (lba + 8 * k))
  simp only [Request.Within]
  omega

namespace Inside

variable {fs fs' : Fs} (h : Inside fs)
include h

lemma base_le : fs.ram.base + 2 ≤ 2 ^ 32 := by
  rw [h.base]
  decide

lemma dir_within (hmounted : fs.ram.mounted = true) :
  Request.Within fs.dev.sectors ⟨u32 (fs.ram.base + afsDirLba), 1⟩ := by
  rw [phys_dir h.base]
  exact (h.mounted hmounted).1

lemma meta_within (hroom : fs.dev.sectors = 0 ∨ afsBaseLba + 2 ≤ fs.dev.sectors) {lba : Nat}
  (hlba : lba < 2) (hsectors : fs.dev.sectors ≠ 0) :
  Request.Within fs.dev.sectors ⟨u32 (fs.ram.base + lba), 1⟩ := by
  have hphys := u32_le (fs.ram.base + lba)
  rw [h.base] at hphys ⊢
  simp only [Request.Within]
  omega

lemma update (hbase : fs'.ram.base = fs.ram.base) (hsectors : fs'.dev.sectors = fs.dev.sectors)
  (hfree : ∀ e ∈ fs'.ram.freeExtents, 2 ≤ e.start ∧ afsBaseLba + e.stop ≤ fs.dev.sectors)
  (hmounted : fs'.ram.mounted = true → afsBaseLba + 2 ≤ fs.dev.sectors ∧
    2 ≤ fs'.ram.nextFreeLba ∧ Dir.Within fs'.dir fs.dev.sectors) : Inside fs' := by
  rw [← hsectors] at hfree hmounted
  exact ⟨hbase.trans h.base, hsectors ▸ h.small, hfree, hmounted⟩

lemma of_meta (hmeta : MetaKept fs fs') : Inside fs' := by
  refine h.update hmeta.base hmeta.sectors ?_ ?_
  · rw [hmeta.ram]
    exact h.free
  rw [hmeta.dir h.base_le, hmeta.ram]
  exact h.mounted

lemma mount (hguard : rangeGuard fs .mount) : Inside (afsMount fs).2 := by
  rcases afsMount_cases fs with ⟨_, _, hmeta⟩ | ⟨hok, iobuf, hcall⟩
  · exact h.of_meta hmeta
  obtain ⟨_, hstart, hfiles⟩ := hguard.2 hok
  have hroom := hguard.1.resolve_left hok.1
  have hnext : 2 ≤ fs.resumed := by
    refine hstart.trans ?_
    unfold Fs.resumed
    split_ifs
    · exact le_rfl
    · exact (resumeLba_bounds _ _).1
  rw [hcall]
  exact h.update rfl rfl h.free fun _ => ⟨hroom, hnext, hfiles⟩

lemma format : Inside (afsFormat fs).2 := by
  rcases afsFormat_cases h.base_le with ⟨_, ⟨iobuf, hram⟩, hsectors, hdir⟩ | ⟨hcall, hin⟩
  · refine h.update (by rw [hram]) hsectors ?_ ?_
    · rw [hram]
      exact h.free
    rw [hram, hdir]
    exact h.mounted
  rw [phys_dir h.base] at hin
  rw [hcall]
  exact h.update rfl rfl h.free fun _ =>
    ⟨hin, le_rfl, fun i hi => absurd hi (fs.not_live_formatted i)⟩

lemma delete (name : List UInt8) : Inside (afsDelete fs name).2 := by
  cases hmounted : fs.ram.mounted with
  | false =>
    have hcall : afsDelete fs name = (false, fs) := by simp [afsDelete, hmounted]
    rw [hcall]
    exact h
  | true =>
    obtain ⟨hroom, hnext, hfiles⟩ := h.mounted hmounted
    have hdone := afsDelete_allowed (OnDisk.allowed h.small) hmounted name h.free
      fun i hfound => hfiles i (findName_some hfound).1
    generalize (afsDelete fs name).2 = fs' at hdone
    cases hdone with
    | same => exact h.of_meta (MetaKept.counted fs)
    | unflushed hfree => exact h.update rfl rfl hfree fun _ => ⟨hroom, hnext, hfiles⟩
    | cleared hfree hfound =>
      refine h.update rfl rfl hfree fun _ => ⟨hroom, hnext, ?_⟩
      rw [dir_flushed]
      exact (Function.forall_update_iff fs.dir fun _ x => x.Live → OnDisk fs.dev.sectors
        x.extent).mpr ⟨fun hzero => absurd hzero not_live_zero, fun j _ => hfiles j⟩

lemma placed (hmounted : fs.ram.mounted = true) {name : List UInt8} {n : Nat}
  (hbump : Bumps fs name n → afsBaseLba + fs.ram.nextFreeLba + n ≤ fs.dev.sectors) :
  (∀ e ∈ (placeFile fs.ram fs.dir name n).2.freeExtents, OnDisk fs.dev.sectors e) ∧
  2 ≤ (placeFile fs.ram fs.dir name n).2.nextFreeLba ∧
  ∀ lba d, (placeFile fs.ram fs.dir name n).1 = some (lba, d) →
    Placed (OnDisk fs.dev.sectors) fs.dir name n lba d := by
  obtain ⟨_, hnext, hfiles⟩ := h.mounted hmounted
  have hplaced := placeFile_allowed (OnDisk.allowed h.small) name h.free
    (fun i hfound => hfiles i (findName_some hfound).1)
    fun hbumps => ⟨hnext, (Nat.add_assoc _ _ _).symm.trans_le (hbump hbumps)⟩
  exact ⟨hplaced.1, hnext.trans hplaced.2.1, hplaced.2.2⟩

lemma withRam (hmounted : fs.ram.mounted = true) {ram : Ram} (hvolume : ram.volume = fs.ram.volume)
  (hfree : ∀ e ∈ ram.freeExtents, 2 ≤ e.start ∧ afsBaseLba + e.stop ≤ fs.dev.sectors)
  (hnext : 2 ≤ ram.nextFreeLba) : Inside { fs.counted with ram := ram } := by
  obtain ⟨hroom, _, hfiles⟩ := h.mounted hmounted
  have hbase := congrArg (fun v => v.2.2.2) hvolume
  refine h.update hbase rfl hfree fun _ => ⟨hroom, hnext, ?_⟩
  have hdir : Fs.dir { fs.counted with ram := ram } = fs.dir := Fs.dir_withRam hbase
  rw [hdir]
  exact hfiles

lemma staged {name bytes : List UInt8} (hargs : Writable fs bytes)
  (hguard : rangeGuard fs (.write (some name) (some bytes))) {lba : Nat} {d : Dir} {ram : Ram}
  (hplace : placeFile fs.ram fs.dir name (sectorsFor bytes.length) = (some (lba, d), ram)) :
  Inside { fs.counted with ram := ram } ∧
    MetaKept { fs.counted with ram := ram }
      (writeChunks { fs.counted with ram := ram } lba bytes (chunksOf bytes.length)).2 := by
  obtain ⟨hfree, hnext, hplaced⟩ := h.placed hargs.1 (hguard name bytes rfl rfl hargs)
  have hvolume := placeFile_volume fs.ram fs.dir name (sectorsFor bytes.length)
  rw [hplace] at hfree hnext hplaced hvolume
  have hsectors := (hplaced lba d rfl).sectors
  exact ⟨h.withRam hargs.1 hvolume hfree hnext, writeChunks_meta _ _ hsectors.1
    ((OnDisk.allowed h.small).stop hsectors) _ le_rfl⟩

lemma write (name data : Option (List UInt8)) (hguard : rangeGuard fs (.write name data)) :
  Inside (afsWrite fs name data).2 := by
  rcases afsWrite_cases fs name data with heq | ⟨name, bytes, rfl, rfl, hargs, hresult⟩
  · rw [heq]
    exact h
  have hfiles := (h.mounted hargs.1).2.2
  have hplaced := h.placed hargs.1 (hguard name bytes rfl rfl hargs)
  have hvolume := placeFile_volume fs.ram fs.dir name (sectorsFor bytes.length)
  generalize afsWrite fs (some name) (some bytes) = result at hresult
  obtain ⟨code, fs'⟩ := result
  dsimp only at hresult ⊢
  cases hresult with
  | unread => exact h.of_meta (MetaKept.counted fs)
  | noRoom hplace =>
    rw [hplace] at hplaced hvolume
    exact h.withRam hargs.1 hvolume hplaced.1 hplaced.2.1
  | broken hplace hloop | nameless hplace hloop =>
    obtain ⟨hinside, hmeta⟩ := h.staged hargs hguard hplace
    rw [hloop] at hmeta
    exact hinside.of_meta hmeta
  | unflushed hplace hloop =>
    obtain ⟨hinside, hmeta⟩ := h.staged hargs hguard hplace
    rw [hloop] at hmeta
    exact hinside.of_meta (hmeta.trans (MetaKept.counted _))
  | @written lba d ram fs' i hplace hloop hfound =>
    obtain ⟨hinside, hmeta⟩ := h.staged hargs hguard hplace
    rw [hloop] at hmeta
    have hlast := hinside.of_meta hmeta
    have hentry := hplaced.2.2 lba d (by rw [hplace])
    have hsectors := hmeta.sectors
    have hbound := (OnDisk.allowed h.small).stop hentry.sectors
    refine hlast.update rfl rfl hlast.free fun hmounted => ?_
    refine ⟨(hlast.mounted hmounted).1, (hlast.mounted hmounted).2.1, ?_⟩
    rw [dir_flushed, hsectors, hentry.only i hfound]
    refine (Function.forall_update_iff fs.dir fun _ x => x.Live →
      OnDisk fs.dev.sectors x.extent).mpr ⟨fun _ => ?_, fun j _ => hfiles j⟩
    rw [hentry.extent_eq hfound hbound hargs.2.2]
    exact hentry.sectors

lemma step (e : VolumeEvent) (hguard : rangeGuard fs e) : Inside (volumeReact fs e) := by
  cases e with
  | mount => exact h.mount hguard
  | format => exact h.format
  | write name data => exact h.write name data hguard
  | read name buf max => exact h.of_meta (afsRead_readOnly fs name buf max).meta
  | delete name => exact h.delete name

end Inside

def VolumeEvent.run : VolumeEvent → LogM Fs Request Unit
  | .mount => do
      let _ ← Requests.afsMount
  | .format => do
      let _ ← Requests.afsFormat
  | .write name data => do
      let _ ← Requests.afsWrite name data
  | .read name buf max => do
      let _ ← Requests.afsRead name buf max
  | .delete name => do
      let _ ← Requests.afsDelete name

lemma VolumeEvent.state_run (fs : Fs) (e : VolumeEvent) : (e.run fs).state = volumeReact fs e := by
  cases e with
  | mount => exact congrArg Prod.snd (Requests.erase_afsMount fs)
  | format => exact congrArg Prod.snd (Requests.erase_afsFormat fs)
  | write name data => exact congrArg Prod.snd (Requests.erase_afsWrite fs name data)
  | read name buf max => exact congrArg Prod.snd (Requests.erase_afsRead fs name buf max)
  | delete name => exact congrArg Prod.snd (Requests.erase_afsDelete fs name)

lemma Inside.logs {fs : Fs} (h : Inside fs) (e : VolumeEvent) (hguard : rangeGuard fs e) :
  e.run.Logs (Request.Within fs.dev.sectors) fs := by
  cases e with
  | mount =>
    exact (logs_bind _ _).mpr ⟨Requests.logs_afsMount (h.meta_within hguard.1 (by decide))
      (h.meta_within hguard.1 (by decide)), logs_pure _⟩
  | format =>
    exact (logs_bind _ _).mpr ⟨Requests.logs_afsFormat (h.meta_within hguard (by decide))
      (h.meta_within hguard (by decide)), logs_pure _⟩
  | write name data =>
    refine (logs_bind _ _).mpr ⟨Requests.logs_afsWrite name data h.dir_within ?_, logs_pure _⟩
    intro name' bytes lba d ram hname hdata hargs hplace k hk
    obtain ⟨_, _, hplaced⟩ := h.placed hargs.1 (hguard name' bytes hname hdata hargs)
    rw [h.base]
    exact chunk_within hk ((Nat.add_assoc _ _ _).trans_le
      (hplaced lba d (by rw [hplace])).sectors.2)
  | read name buf max =>
    refine (logs_bind _ _).mpr ⟨Requests.logs_afsRead name buf max h.dir_within ?_, logs_pure _⟩
    intro hmounted i hlive k hk
    have hstop := ((h.mounted hmounted).2.2 i hlive).2
    rw [Extent.stop, ← Nat.add_assoc] at hstop
    rw [h.base]
    exact chunk_within hk hstop
  | delete name =>
    exact (logs_bind _ _).mpr ⟨Requests.logs_afsDelete name h.dir_within, logs_pure _⟩

def Request.Fits (r : Request) : Prop := r.lba < 2 ^ 32 ∧ r.count ≤ 8

lemma Request.Fits.within {r : Request} (h : r.Fits)
  (hlarge : 2 ^ 32 + 7 ≤ sectors) : r.Within sectors := by
  obtain ⟨hlba, hcount⟩ := h
  simp only [Request.Within]
  omega

lemma VolumeEvent.logs_fits (fs : Fs) (e : VolumeEvent) : e.run.Logs Request.Fits fs := by
  have hmeta : ∀ lba, Request.Fits ⟨u32 lba, 1⟩ := fun lba => ⟨u32_lt _, Nat.le_add_left 1 7⟩
  have hchunk : ∀ lba len k, Request.Fits ⟨u32 lba, sectorsFor (chunkLen len k)⟩ := by
    refine fun lba len k => ⟨u32_lt _, ?_⟩
    simp only [sectorsFor, chunkLen, chunkSize, sectSize]
    omega
  cases e with
  | mount =>
    exact (logs_bind _ _).mpr ⟨Requests.logs_afsMount (fun _ => hmeta _) fun _ => hmeta _,
      logs_pure _⟩
  | format =>
    exact (logs_bind _ _).mpr ⟨Requests.logs_afsFormat (fun _ => hmeta _) fun _ => hmeta _,
      logs_pure _⟩
  | write name data =>
    exact (logs_bind _ _).mpr ⟨Requests.logs_afsWrite name data (fun _ => hmeta _)
      fun _ _ _ _ _ _ _ _ _ k _ => hchunk _ _ k, logs_pure _⟩
  | read name buf max =>
    exact (logs_bind _ _).mpr ⟨Requests.logs_afsRead name buf max (fun _ => hmeta _)
      fun _ _ _ k _ => hchunk _ _ k, logs_pure _⟩
  | delete name =>
    exact (logs_bind _ _).mpr ⟨Requests.logs_afsDelete name fun _ => hmeta _, logs_pure _⟩

/-- The volume, and every request made since boot. -/
structure Probe where
  fs : Fs
  asked : List Request

def probeReact (p : Probe) (e : VolumeEvent) : Probe :=
  let done := e.run p.fs
  ⟨done.state, p.asked ++ done.log⟩

/-- Any sequence of calls after boot, whatever the disk holds and whichever requests
fail. -/
def probeMachine : Machine Probe VolumeEvent where
  init p := p.fs.ram = Ram.boot ∧ p.asked = []
  enabled _ _ := True
  step := probeReact

/-- The condition on a step: a disk with more sectors than there are addresses, or a call
that stays on the disk. -/
def diskGuard (p : Probe) (e : VolumeEvent) : Prop :=
  2 ^ 32 + 7 ≤ p.fs.dev.sectors ∨ rangeGuard p.fs e

structure Charted (p : Probe) : Prop where
  base : p.fs.ram.base = afsBaseLba
  inside : p.fs.dev.sectors < 2 ^ 32 + 7 → Inside p.fs
  asked : ∀ r ∈ p.asked, r.Within p.fs.dev.sectors

lemma Charted.boot {p : Probe} (hinit : probeMachine.init p) : Charted p := by
  obtain ⟨hram, hasked⟩ := hinit
  refine ⟨by rw [hram]; rfl, fun hsmall => ⟨by rw [hram]; rfl, hsmall, ?_, ?_⟩, ?_⟩
  · rw [hram]
    intro e he
    cases he
  · rw [hram]
    intro hmounted
    cases hmounted
  rw [hasked]
  intro r hr
  cases hr

lemma Charted.step {p : Probe} (h : Charted p) (e : VolumeEvent) (hguard : diskGuard p e) :
  Charted (probeReact p e) := by
  have hsame := volumeReact_base p.fs e (by rw [h.base]; decide)
  rw [← e.state_run] at hsame
  obtain ⟨hbase, hsectors⟩ := hsame
  have hrange : p.fs.dev.sectors < 2 ^ 32 + 7 → rangeGuard p.fs e :=
    fun hsmall => hguard.resolve_left (not_le.mpr hsmall)
  refine ⟨hbase.trans h.base, fun hsmall => ?_, fun r hr => ?_⟩
  · have hsmall : p.fs.dev.sectors < 2 ^ 32 + 7 := hsectors ▸ hsmall
    show Inside (e.run p.fs).state
    rw [e.state_run]
    exact (h.inside hsmall).step e (hrange hsmall)
  show r.Within (e.run p.fs).state.dev.sectors
  rw [hsectors]
  rcases List.mem_append.mp hr with hr | hr
  · exact h.asked r hr
  by_cases hsmall : p.fs.dev.sectors < 2 ^ 32 + 7
  · exact (h.inside hsmall).logs e (hrange hsmall) r hr
  · exact (e.logs_fits p.fs r hr).within (not_lt.mp hsmall)

/-- In every run whose calls all meet the condition, no request ever made goes past the
end of the disk. -/
theorem requests_within_disk {p : Probe} (hreach : (probeMachine.restrict diskGuard).Reachable p) :
  ∀ r ∈ p.asked, r.lba + r.count ≤ p.fs.dev.sectors := by
  have hcharted : Charted p := by
    refine hreach.invariant Charted ?_ ?_
    · intro p hinit
      exact Charted.boot hinit
    intro p e h henabled
    exact h.step e henabled.2
  exact hcharted.asked

def oneFileCalls : List VolumeEvent :=
  [.format, .write (some [97]) (some [1]), .read (some [97]) 1 1]

theorem requests_within_disk_one_file : ∃ p : Probe,
  (⟨8194, 1⟩ : Request) ∈ p.asked ∧ ∀ r ∈ p.asked, r.lba + r.count ≤ p.fs.dev.sectors := by
  have hrun : (probeMachine.restrict diskGuard).Run ⟨blankFs, []⟩ oneFileCalls
      (oneFileCalls.foldl probeReact ⟨blankFs, []⟩) := by
    refine .cons ⟨trivial, .inr (.inr (by decide))⟩ ?_
    refine .cons ⟨trivial, .inr ?_⟩ (.cons ⟨trivial, .inr trivial⟩ (.nil _))
    intro name bytes hname hbytes _ _
    cases hbytes
    decide +kernel
  exact ⟨_, by decide +kernel, requests_within_disk ⟨_, _, ⟨rfl, rfl⟩, hrun⟩⟩

def tinyFs : Fs := { blankFs with dev := { blankFs.dev with sectors := 8195 } }

/-- The disk has room for one sector, and a write asks for three. -/
theorem write_past_end : ∃ p : Probe, probeMachine.Reachable p ∧
  ∃ r ∈ p.asked, ¬ r.lba + r.count ≤ p.fs.dev.sectors := by
  have hrun : probeMachine.Run ⟨tinyFs, []⟩
      [.format, .write (some [97]) (some (List.replicate 1025 1))]
      ([VolumeEvent.format, .write (some [97]) (some (List.replicate 1025 1))].foldl probeReact
        ⟨tinyFs, []⟩) := Machine.run_foldl (fun _ _ => trivial) _ _
  exact ⟨_, ⟨_, _, ⟨rfl, rfl⟩, hrun⟩, ⟨8194, 3⟩, by decide +kernel, by decide +kernel⟩

end Aeos.Afs
