/-
# Calls beside a file of one sector

Writes and deletes of other names leave a file of one sector alone, whichever of their
requests fail: the sectors they choose, the free list and the bump pointer stay clear of
it.
-/

import Aeos.Afs.Places
import Aeos.Afs.Remount

namespace Aeos.Afs

open Lib

def SectorKept (c : Nat) (fs fs' : Fs) : Prop := ∀ j < sectSize, fs'.sector c j = fs.sector c j

lemma SectorKept.trans {c : Nat} {fs fs' fs'' : Fs} (h : SectorKept c fs fs')
  (h' : SectorKept c fs' fs'') : SectorKept c fs fs'' :=
  fun j hj => (h' j hj).trans (h j hj)

lemma SectorKept.stored {c lba n : Nat} (hc : c < 2 ^ 32) (hend : lba + n ≤ 2 ^ 32)
  (hout : ¬ Extent.Has ⟨lba, n⟩ c) (fs : Fs) (buf : Nat → UInt8) :
  SectorKept c fs (fs.stored lba buf n) := by
  intro j hj
  show overwrite fs.dev.data (u32 (fs.ram.base + lba) * sectSize) (n * sectSize) buf
    (u32 (fs.ram.base + c) * sectSize + j) = fs.sector c j
  apply overwrite_outside
  simp only [Extent.Has, Extent.stop, not_and, not_lt] at hout
  simp only [u32, sectSize] at hj ⊢
  omega

lemma writeChunks_sector {c lba : Nat} (hc : c < 2 ^ 32) {data : List UInt8}
  (hend : lba + sectorsFor data.length < 2 ^ 32)
  (hout : ¬ Extent.Has ⟨lba, sectorsFor data.length⟩ c) (fs : Fs) :
  SectorKept c fs (writeChunks fs lba data (chunksOf data.length)).2 := by
  refine writeChunks_kept (R := SectorKept c) data hend (fun _ _ _ => rfl) SectorKept.trans
    (fun _ _ _ _ _ => rfl) (fun _ _ _ => rfl) ?_ fs _ le_rfl
  intro fs l n buf hlo hhi
  apply SectorKept.stored hc (by omega)
  rintro ⟨hfirst, hlast⟩
  exact hout ⟨hlo.trans hfirst, Nat.lt_of_lt_of_le hlast hhi⟩

def Avoids (c : Option Nat) (e : Extent) : Prop :=
  2 ≤ e.start ∧ e.stop < 2 ^ 32 ∧ ∀ s ∈ c, ¬ e.Has s

lemma Avoids.allowed (c : Option Nat) : Allowed (Avoids c) where
  part := by
    rintro e part ⟨hlo, hhi, hout⟩ hstart hstop
    refine ⟨hlo.trans hstart, Nat.lt_of_le_of_lt hstop hhi, fun s hs hhas => hout s hs ?_⟩
    exact ⟨hstart.trans hhas.1, Nat.lt_of_lt_of_le hhas.2 hstop⟩
  start he := he.1
  stop he := he.2.1

structure Beside (own : List UInt8) (c : Option Nat) (fs fs' : Fs) : Prop where
  base : fs'.ram.base = fs.ram.base
  sectors : fs'.dev.sectors = fs.dev.sectors
  superblock : fs'.superblock = fs.superblock
  entry : ∀ i, fs'.dir i = fs.dir i ∨
    ((fs.dir i).Live → cstr (fs.dir i).name ≠ cstr own) ∧
      ((fs'.dir i).Live → cstr (fs'.dir i).name ≠ cstr own)
  sector : ∀ s ∈ c, SectorKept s fs fs'

namespace Beside

variable {own : List UInt8} {c : Option Nat} {fs fs' fs'' : Fs}

lemma trans (h : Beside own c fs fs') (h' : Beside own c fs' fs'') : Beside own c fs fs'' where
  base := h'.base.trans h.base
  sectors := h'.sectors.trans h.sectors
  superblock := h'.superblock.trans h.superblock
  entry i := by
    rcases h'.entry i with heq' | hne'
    · rw [heq']
      exact h.entry i
    rcases h.entry i with heq | hne
    · rw [heq] at hne'
      exact .inr hne'
    · exact .inr ⟨hne.1, hne'.2⟩
  sector s hs := (h.sector s hs).trans (h'.sector s hs)

lemma of_meta (hbase : fs.ram.base = afsBaseLba) (hmeta : MetaKept fs fs')
  (hsector : ∀ s ∈ c, SectorKept s fs fs') : Beside own c fs fs' := by
  have hbound : fs.ram.base + 2 ≤ 2 ^ 32 := by
    rw [hbase]
    decide
  refine ⟨hmeta.base, hmeta.sectors, hmeta.superblock hbound, fun i => .inl ?_, hsector⟩
  rw [hmeta.dir hbound]

lemma of_readOnly (hbase : fs.ram.base = afsBaseLba) (hread : ReadOnly fs fs') :
  Beside own c fs fs' := by
  apply of_meta hbase hread.meta
  intro s _ j _
  rw [Fs.sector, Fs.sector, hread.data, hread.meta.base]

lemma withRam {ram : Ram} (hram : ram.base = fs.ram.base) :
  Beside own c fs { fs.counted with ram := ram } where
  base := hram
  sectors := rfl
  superblock := Fs.superblock_withRam hram
  entry i := by
    have hdir : Fs.dir { fs.counted with ram := ram } = fs.dir := Fs.dir_withRam hram
    rw [hdir]
    exact .inl rfl
  sector s _ j _ := by
    have hsector : Fs.sector { fs.counted with ram := ram } s = fs.sector s :=
      Fs.sector_withRam hram s
    rw [hsector]

lemma flushed (hbase : fs.ram.base = afsBaseLba) (hslot : ∀ s ∈ c, 2 ≤ s ∧ s < 2 ^ 32)
  {i : Fin afsMaxFiles} {e : Dirent} (hold : (fs.dir i).Live → cstr (fs.dir i).name ≠ cstr own)
  (hnew : e.Live → cstr e.name ≠ cstr own) :
  Beside own c fs (fs.stored afsDirLba (dirEncode (Function.update fs.dir i e)) 1) where
  base := rfl
  sectors := rfl
  superblock := superblock_flushed (by rw [hbase]; decide) _
  entry j := by
    rw [dir_flushed]
    by_cases hj : j = i
    · subst hj
      rw [Function.update_self]
      exact .inr ⟨hold, hnew⟩
    · exact .inl (Function.update_of_ne hj _ _)
  sector s hs := by
    obtain ⟨hlo, hhi⟩ := hslot s hs
    apply SectorKept.stored hhi (by decide)
    rintro ⟨_, hlast⟩
    exact absurd (Nat.lt_of_lt_of_le hlast hlo) (Nat.lt_irrefl s)

lemma findName_eq (h : Beside own c fs fs') : findName fs'.dir own = findName fs.dir own := by
  apply findName_congr
  intro i
  rcases h.entry i with heq | hne
  · rw [heq]
  · exact iff_of_false (fun hi => hne.2 hi.1 hi.2) fun hi => hne.1 hi.1 hi.2

end Beside

/-! ## What keeps it alone -/

structure ClearOf (own : List UInt8) (c : Option Nat) (fs : Fs) : Prop where
  base : fs.ram.base = afsBaseLba
  slot : ∀ s ∈ c, 2 ≤ s ∧ s < 2 ^ 32
  start : fs.superblock.valid = true → 2 ≤ fs.superblock.dataStartLba
  files : fs.superblock.valid = true → ∀ i, (fs.dir i).Live → cstr (fs.dir i).name ≠ cstr own →
    (fs.dir i).size + (sectSize - 1) < 2 ^ 32 ∧ Avoids c (fs.dir i).extent
  free : ∀ e ∈ fs.ram.freeExtents, Avoids c e
  mounted : fs.ram.mounted = true → fs.superblock.valid = true ∧ 2 ≤ fs.ram.nextFreeLba ∧
    ∀ s ∈ c, s < fs.ram.nextFreeLba

namespace ClearOf

variable {own : List UInt8} {c : Option Nat} {fs fs' : Fs} (h : ClearOf own c fs)
include h

lemma base_le : fs.ram.base + 2 ≤ 2 ^ 32 := by
  rw [h.base]
  decide

lemma update (hbase : fs'.ram.base = fs.ram.base) (hsuperblock : fs'.superblock = fs.superblock)
  (hfiles : fs.superblock.valid = true → ∀ i, (fs'.dir i).Live → cstr (fs'.dir i).name ≠ cstr own →
    (fs'.dir i).size + (sectSize - 1) < 2 ^ 32 ∧ Avoids c (fs'.dir i).extent)
  (hfree : ∀ e ∈ fs'.ram.freeExtents, Avoids c e)
  (hmounted : fs'.ram.mounted = true → fs.superblock.valid = true ∧ 2 ≤ fs'.ram.nextFreeLba ∧
    ∀ s ∈ c, s < fs'.ram.nextFreeLba) : ClearOf own c fs' := by
  rw [← hsuperblock] at hfiles hmounted
  exact ⟨hbase.trans h.base, h.slot, hsuperblock ▸ h.start, hfiles, hfree, hmounted⟩

lemma of_meta (hmeta : MetaKept fs fs') : ClearOf own c fs' := by
  refine h.update hmeta.base (hmeta.superblock h.base_le) ?_ ?_ ?_
  · rw [hmeta.dir h.base_le]
    exact h.files
  · rw [hmeta.ram]
    exact h.free
  rw [hmeta.ram]
  exact h.mounted

lemma withRam {ram : Ram} (hram : ram.base = fs.ram.base)
  (hfree : ∀ e ∈ ram.freeExtents, Avoids c e)
  (hmounted : ram.mounted = true → fs.superblock.valid = true ∧ 2 ≤ ram.nextFreeLba ∧
    ∀ s ∈ c, s < ram.nextFreeLba) : ClearOf own c { fs.counted with ram := ram } := by
  refine h.update hram (Fs.superblock_withRam hram) ?_ hfree hmounted
  have hdir : Fs.dir { fs.counted with ram := ram } = fs.dir := Fs.dir_withRam hram
  rw [hdir]
  exact h.files

variable {name : List UInt8}

lemma file (hmounted : fs.ram.mounted = true)
  (hother : cstr name ≠ cstr own) {i : Fin afsMaxFiles} (hfound : findName fs.dir name = some i) :
  Avoids c (fs.dir i).extent := by
  obtain ⟨hlive, hname⟩ := findName_some hfound
  exact (h.files (h.mounted hmounted).1 i hlive (hname ▸ hother)).2

lemma delete (hother : cstr name ≠ cstr own) :
  ClearOf own c (afsDelete fs name).2 ∧ Beside own c fs (afsDelete fs name).2 := by
  cases hmounted : fs.ram.mounted with
  | false =>
    have hcall : afsDelete fs name = (false, fs) := by simp [afsDelete, hmounted]
    rw [hcall]
    exact ⟨h, Beside.of_readOnly h.base (ReadOnly.refl fs)⟩
  | true =>
    have hdone := afsDelete_allowed (Avoids.allowed c) hmounted name h.free
      fun i hfound => h.file hmounted hother hfound
    generalize (afsDelete fs name).2 = fs' at hdone
    cases hdone with
    | same =>
      exact ⟨h.of_meta (MetaKept.counted fs), Beside.of_readOnly h.base (ReadOnly.counted fs)⟩
    | @unflushed free hfree =>
      have hram : ClearOf own c (fs.counted.withFree free) := h.withRam rfl hfree h.mounted
      have hbeside : Beside own c fs (fs.counted.withFree free) := .withRam rfl
      exact ⟨hram.of_meta (MetaKept.counted _),
        hbeside.trans (.of_readOnly hram.base (ReadOnly.counted _))⟩
    | @cleared free i hfree hfound =>
      have hram : ClearOf own c (fs.counted.withFree free) := h.withRam rfl hfree h.mounted
      have hbeside : Beside own c fs (fs.counted.withFree free) := .withRam rfl
      have hname := (findName_some hfound).2
      have hflush : Beside own c (fs.counted.withFree free)
          ((fs.counted.withFree free).stored afsDirLba
            (dirEncode (Function.update fs.dir i Dirent.zero)) 1) :=
        .flushed hram.base h.slot (fun _ => hname ▸ hother)
          fun hzero => absurd hzero not_live_zero
      refine ⟨?_, hbeside.trans hflush⟩
      refine hram.update rfl hflush.superblock (fun hvalid => ?_) hfree h.mounted
      rw [dir_flushed]
      exact (Function.forall_update_iff fs.dir fun _ x => x.Live → cstr x.name ≠ cstr own →
        x.size + (sectSize - 1) < 2 ^ 32 ∧ Avoids c x.extent).mpr
          ⟨fun hzero => absurd hzero not_live_zero, fun j _ => h.files hvalid j⟩

lemma placed (hmounted : fs.ram.mounted = true) (hother : cstr name ≠ cstr own) {n : Nat}
  (hbump : Bumps fs name n → fs.ram.nextFreeLba + n < 2 ^ 32) :
  (∀ e ∈ (placeFile fs.ram fs.dir name n).2.freeExtents, Avoids c e) ∧
  fs.ram.nextFreeLba ≤ (placeFile fs.ram fs.dir name n).2.nextFreeLba ∧
  ∀ lba d, (placeFile fs.ram fs.dir name n).1 = some (lba, d) →
    Placed (Avoids c) fs.dir name n lba d := by
  obtain ⟨_, hnext, hpast⟩ := h.mounted hmounted
  apply placeFile_allowed (Avoids.allowed c) name h.free
  · exact fun i hfound => h.file hmounted hother hfound
  intro hbumps
  refine ⟨hnext, hbump hbumps, fun s hs hhas => ?_⟩
  exact absurd (Nat.lt_of_lt_of_le (hpast s hs) hhas.1) (Nat.lt_irrefl s)

lemma staged {bytes : List UInt8} (hargs : Writable fs bytes)
  (hother : cstr name ≠ cstr own) (hbump : Bumps fs name (sectorsFor bytes.length) →
    fs.ram.nextFreeLba + sectorsFor bytes.length < 2 ^ 32) {lba : Nat} {d : Dir} {ram : Ram}
  {ok : Bool} {fs' : Fs}
  (hplace : placeFile fs.ram fs.dir name (sectorsFor bytes.length) = (some (lba, d), ram))
  (hloop : writeChunks { fs.counted with ram := ram } lba bytes (chunksOf bytes.length) =
    (ok, fs')) :
  ClearOf own c fs' ∧ Beside own c fs fs' ∧ fs'.dir = fs.dir ∧
    Placed (Avoids c) fs.dir name (sectorsFor bytes.length) lba d := by
  obtain ⟨hfree, hnext, hplaced⟩ := h.placed hargs.1 hother hbump
  have hvolume := placeFile_volume fs.ram fs.dir name (sectorsFor bytes.length)
  rw [hplace] at hfree hnext hplaced hvolume
  have hchosen := hplaced lba d rfl
  obtain ⟨hlo, hhi, hout⟩ := hchosen.sectors
  have hbase := congrArg (fun v => v.2.2.2) hvolume
  obtain ⟨hvalid, hstart, hpast⟩ := h.mounted hargs.1
  have hram : ClearOf own c { fs.counted with ram := ram } :=
    h.withRam hbase hfree fun _ =>
      ⟨hvalid, hstart.trans hnext, fun s hs => Nat.lt_of_lt_of_le (hpast s hs) hnext⟩
  have hmeta := writeChunks_meta { fs.counted with ram := ram } bytes hlo hhi _ le_rfl
  have hsector : ∀ s ∈ c, SectorKept s { fs.counted with ram := ram } fs' := by
    intro s hs
    have hkept := writeChunks_sector (h.slot s hs).2 hhi (hout s hs) { fs.counted with ram := ram }
    rwa [hloop] at hkept
  rw [hloop] at hmeta
  refine ⟨hram.of_meta hmeta, (Beside.withRam hbase).trans (.of_meta hram.base hmeta hsector), ?_,
    hchosen⟩
  rw [hmeta.dir hram.base_le]
  exact Fs.dir_withRam hbase

lemma write {name data : Option (List UInt8)}
  (hother : ∀ name', name = some name' → cstr name' ≠ cstr own)
  (hbump : ∀ name' bytes, name = some name' → data = some bytes → Writable fs bytes →
    Bumps fs name' (sectorsFor bytes.length) →
    fs.ram.nextFreeLba + sectorsFor bytes.length < 2 ^ 32) :
  ClearOf own c (afsWrite fs name data).2 ∧ Beside own c fs (afsWrite fs name data).2 := by
  rcases afsWrite_cases fs name data with heq | ⟨name, bytes, rfl, rfl, hargs, hresult⟩
  · rw [heq]
    exact ⟨h, Beside.of_readOnly h.base (ReadOnly.refl fs)⟩
  have hother := hother name rfl
  have hbump := hbump name bytes rfl rfl hargs
  generalize afsWrite fs (some name) (some bytes) = result at hresult
  obtain ⟨code, fs'⟩ := result
  dsimp only at hresult ⊢
  cases hresult with
  | unread =>
    exact ⟨h.of_meta (MetaKept.counted fs), Beside.of_readOnly h.base (ReadOnly.counted fs)⟩
  | noRoom hplace =>
    obtain ⟨hfree, hnext, _⟩ := h.placed hargs.1 hother hbump
    have hvolume := placeFile_volume fs.ram fs.dir name (sectorsFor bytes.length)
    rw [hplace] at hfree hnext hvolume
    have hbase := congrArg (fun v => v.2.2.2) hvolume
    obtain ⟨hvalid, hstart, hpast⟩ := h.mounted hargs.1
    refine ⟨h.withRam hbase hfree fun _ => ⟨hvalid, hstart.trans hnext, ?_⟩, .withRam hbase⟩
    exact fun s hs => Nat.lt_of_lt_of_le (hpast s hs) hnext
  | broken hplace hloop | nameless hplace hloop =>
    obtain ⟨hclear, hbeside, _⟩ := h.staged hargs hother hbump hplace hloop
    exact ⟨hclear, hbeside⟩
  | unflushed hplace hloop =>
    obtain ⟨hclear, hbeside, _⟩ := h.staged hargs hother hbump hplace hloop
    exact ⟨hclear.of_meta (MetaKept.counted _),
      hbeside.trans (.of_readOnly hclear.base (ReadOnly.counted _))⟩
  | @written lba d ram fs' i hplace hloop hfound =>
    obtain ⟨hclear, hbeside, hdir, hplaced⟩ := h.staged hargs hother hbump hplace hloop
    have hnew := (findName_some hfound).2 ▸ hother
    have hold : (fs.dir i).Live → cstr (fs.dir i).name ≠ cstr own :=
      fun hlive => (findName_some (hplaced.owner i hfound hlive)).2 ▸ hother
    rw [hplaced.only i hfound, ← hdir]
    have hflush : Beside own c fs' (fs'.stored afsDirLba
        (dirEncode (Function.update fs'.dir i ((d i).setSize bytes.length))) 1) :=
      .flushed hclear.base h.slot (hdir ▸ hold) fun _ => hnew
    refine ⟨?_, hbeside.trans hflush⟩
    refine hclear.update rfl hflush.superblock (fun hvalid => ?_) hclear.free hclear.mounted
    rw [dir_flushed]
    refine (Function.forall_update_iff fs'.dir fun _ x => x.Live → cstr x.name ≠ cstr own →
      x.size + (sectSize - 1) < 2 ^ 32 ∧ Avoids c x.extent).mpr
        ⟨fun _ _ => ?_, fun j _ => hclear.files hvalid j⟩
    rw [hplaced.extent_eq hfound hplaced.sectors.2.1 hargs.2.2, size_setSize _ hargs.2.2]
    exact ⟨Nat.lt_of_le_of_lt (Nat.add_le_add_right hargs.2.2 _) (by decide), hplaced.sectors⟩

end ClearOf
end Aeos.Afs
