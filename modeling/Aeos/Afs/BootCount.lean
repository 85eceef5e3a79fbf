/-
# The boot counter

`kernel_main` keeps the number of boots as decimal text in `bootcount.txt`. Each boot mounts the
volume or formats it, reads the number, prints it plus one and writes it back. A read that fails
looks like a missing file: the boot prints 1 and writes it over the count.
-/

import Aeos.Afs.Beside
import Aeos.Afs.Refinement
import Aeos.Lib.Decimal

namespace Aeos.Afs

open Lib List Option Function

def bootName : List UInt8 := [98, 111, 111, 116, 99, 111, 117, 110, 116, 46, 116, 120, 116]

structure Boot where
  /-- The volume did not mount and went through `afs_format`. -/
  formatted : Bool
  /-- The bytes `afs_read` stored in `buf`. -/
  read : Option (List UInt8)
  /-- The number on the console. -/
  printed : Nat
  /-- What `afs_write` returned. -/
  wrote : Option Nat
  fs : Fs

def mountOrFormat (fs : Fs) : Bool × Fs :=
  match afsMount fs with
  | (true, fs) => (false, fs)
  | (false, fs) => (true, (afsFormat fs).2)

def storedCount : Option (List UInt8) → Nat
  | some bytes => if 0 < bytes.length then readDec (2 ^ 32) bytes else 0
  | none => 0

def countBoot (formatted : Bool) (fs : Fs) : Boot :=
  let got := afsRead fs (some bootName) 1 15
  let count := u32 (storedCount got.1 + 1)
  let put := afsWrite got.2 (some bootName) (some (decText count))
  ⟨formatted, got.1, count, put.1, put.2⟩

/-- The counter's part of a boot, after a restart. -/
def boot (fs : Fs) : Boot :=
  let ready := mountOrFormat fs.restarted
  countBoot ready.1 ready.2

/-- The volume, and the number the last boot since it was formatted has printed. -/
structure Counted where
  fs : Fs
  last : Option Nat

inductive BootEvent
  | boot
  /-- The firmware formats the volume. -/
  | format
  | write (name data : Option (List UInt8))
  | delete (name : List UInt8)
  | read (name : Option (List UInt8)) (buf max : Nat)

def bootReact (s : Counted) : BootEvent → Counted
  | .boot => ⟨(boot s.fs).fs, some (boot s.fs).printed⟩
  | .format => ⟨(afsFormat s.fs.restarted).2, none⟩
  | .write name data => ⟨(afsWrite s.fs name data).2, s.last⟩
  | .delete name => ⟨(afsDelete s.fs name).2, s.last⟩
  | .read name buf max => ⟨(afsRead s.fs name buf max).2, s.last⟩

structure Provisioned (fs : Fs) : Prop where
  start : 2 ≤ fs.superblock.dataStartLba
  files : ∀ i, (fs.dir i).Live → (fs.dir i).size + (sectSize - 1) < 2 ^ 32 ∧
    2 ≤ (fs.dir i).startLba ∧ (fs.dir i).extent.stop < 2 ^ 32
  absent : findName fs.dir bootName = none

/-- Boots whose write of the counter succeeds, formats that succeed, and calls for other names, on
any disk that holds no volume or one without a counter. -/
def bootMachine : Machine Counted BootEvent where
  init s := s.fs.ram = Ram.boot ∧ s.last = none ∧
    (s.fs.superblock.valid = true → Provisioned s.fs)
  enabled s e :=
    match e with
    | .boot => (boot s.fs).wrote.isSome = true
    | .format => (afsFormat s.fs.restarted).1 = true
    | .write name _ => ∀ name', name = some name' → cstr name' ≠ cstr bootName
    | .delete name => cstr name ≠ cstr bootName
    | .read _ _ _ => True
  step := bootReact

/-- The condition on a step: at a boot that mounts, the three requests after the superblock's do
not fail; the bump pointer does not wrap. -/
def bootGuard (s : Counted) : BootEvent → Prop
  | .boot => s.fs.restarted.Mountable →
      (∀ k < 3, s.fs.dev.fault (s.fs.dev.reqs + 1 + k) = false) ∧
      (findName s.fs.dir bootName = none → s.fs.restarted.resumed + 1 < 2 ^ 32)
  | .write name data => ∀ name' bytes, name = some name' → data = some bytes →
      Writable s.fs bytes → Bumps s.fs name' (sectorsFor bytes.length) →
      s.fs.ram.nextFreeLba + sectorsFor bytes.length < 2 ^ 32
  | _ => True

/-- What a boot that mounts is to print. -/
def Counted.next (s : Counted) : Nat :=
  match s.last with
  | some k => u32 (k + 1)
  | none => 1

/-! ## The counter's file -/

lemma length_counter_pos (k : Nat) : 0 < (decText k).length :=
  length_pos_iff.mpr (decText_ne_nil k)

variable {k c : Nat} {fs : Fs}

section
variable (hk : k < 2 ^ 32)
include hk

lemma length_counter_le : (decText k).length ≤ 10 :=
  length_decText_le (hk.trans (by decide))

lemma counter_sectors : sectorsFor (decText k).length = 1 ∧ chunksOf (decText k).length = 1 := by
  have hpos := length_counter_pos k
  have hle := length_counter_le hk
  simp only [sectorsFor, chunksOf, sectSize, chunkSize]
  omega

lemma chunkLen_counter : chunkLen (decText k).length 0 = (decText k).length := by
  have hle := length_counter_le hk
  simp only [chunkLen, chunkSize]
  omega

end

structure Holds (fs : Fs) (c k : Nat) : Prop where
  count : k < 2 ^ 32
  stop : c + 1 < 2 ^ 32
  entry : ∃ i, findName fs.dir bootName = some i ∧ (fs.dir i).startLba = c ∧
    (fs.dir i).size = (decText k).length
  only : ∀ i j, (fs.dir i).Live → cstr (fs.dir i).name = cstr bootName →
    (fs.dir j).Live → cstr (fs.dir j).name = cstr bootName → i = j
  text : ∀ j < (decText k).length, fs.sector c j = (decText k).getD j 0
  room : u32 (fs.ram.base + c) + 1 ≤ fs.dev.sectors

section
variable (h : Holds fs c k)
include h

lemma Holds.beside {fs' : Fs} (hbeside : Beside bootName (some c) fs fs') : Holds fs' c k := by
  have hkept : ∀ i, (fs'.dir i).Live → cstr (fs'.dir i).name = cstr bootName →
      fs'.dir i = fs.dir i := by
    intro i hlive hname
    rcases hbeside.entry i with heq | hne
    · exact heq
    · exact absurd hname (hne.2 hlive)
  obtain ⟨i, hfound, hstart, hsize⟩ := h.entry
  have hfound' := hbeside.findName_eq.trans hfound
  have hi : fs'.dir i = fs.dir i := by
    obtain ⟨hlive, hname⟩ := findName_some hfound'
    exact hkept i hlive hname
  refine ⟨h.count, h.stop, ⟨i, hfound', hi ▸ hstart, hi ▸ hsize⟩, ?_, fun j hj => ?_, ?_⟩
  · intro i j hi hi' hj hj'
    have hi₀ := hkept i hi hi'
    have hj₀ := hkept j hj hj'
    rw [hi₀] at hi hi'
    rw [hj₀] at hj hj'
    exact h.only i j hi hi' hj hj'
  · refine (hbeside.sector c rfl j ?_).trans (h.text j hj)
    exact Nat.lt_of_lt_of_le hj ((length_counter_le h.count).trans (by decide))
  rw [hbeside.base, hbeside.sectors]
  exact h.room

lemma Holds.ends : ∃ i, (fs.dir i).Live ∧ c < (fs.dir i).endLba := by
  obtain ⟨i, hfound, hstart, hsize⟩ := h.entry
  have hstop : (fs.dir i).extent.stop = c + 1 := by
    rw [Extent.stop, Dirent.extent, hstart, hsize]
    exact congrArg (c + ·) (counter_sectors h.count).1
  have hsmall : (fs.dir i).size + (sectSize - 1) < 2 ^ 32 := by
    rw [hsize]
    exact Nat.lt_of_le_of_lt (Nat.add_le_add_right (length_counter_le h.count) _) (by decide)
  refine ⟨i, (findName_some hfound).1, ?_⟩
  rw [endLba_eq hsmall (hstop ▸ h.stop), hstop]
  exact Nat.lt_succ_self c

lemma Holds.read (hmounted : fs.ram.mounted = true) (hload : fs.refuses afsDirLba 1 = false)
    (hfault : fs.dev.fault (fs.dev.reqs + 1) = false) :
  (afsRead fs (some bootName) 1 15).1 = some (decText k) := by
  obtain ⟨i, hfound, hstart, hsize⟩ := h.entry
  have hpos := length_counter_pos k
  have hle := length_counter_le h.count
  have hchunks : chunksOf (min 15 (decText k).length) = 1 := by
    rw [min_eq_right (hle.trans (by decide))]
    exact (counter_sectors h.count).2
  have hsome : 0 * chunkSize < (decText k).length := by rwa [Nat.zero_mul]
  obtain ⟨fs', _, hchunk⟩ := readChunk_eq fs.counted c hsome
  have haddr : u32 (c + 8 * 0) = c := u32_of_lt (Nat.lt_of_succ_lt h.stop)
  have hrange : u32 (fs.counted.ram.base + c) + 1 ≤ fs.counted.dev.sectors := h.room
  have hok := (Fs.refuses_eq_fault hrange).trans hfault
  have hbytes : bytesAt fs.counted.dev.data (u32 (fs.counted.ram.base + c) * sectSize)
      (decText k).length = decText k := bytesAt_eq_of_getD h.text
  rw [haddr, chunkLen_counter h.count, (counter_sectors h.count).1, hok, if_neg Bool.false_ne_true,
    hbytes] at hchunk
  rw [afsRead_loaded hmounted (by decide) (by decide) hload hfound, hsize, hstart, hchunks,
    readChunks, readChunks]
  simp only [hchunk, nil_append]

end

lemma writeChunks_counter {fs' : Fs} (hk : k < 2 ^ 32) (hc : c + 1 < 2 ^ 32)
  (hloop : writeChunks fs c (decText k) (chunksOf (decText k).length) = (true, fs')) :
  (∀ j < (decText k).length, fs'.sector c j = (decText k).getD j 0) ∧
    u32 (fs'.ram.base + c) + 1 ≤ fs'.dev.sectors := by
  have hle := length_counter_le hk
  have hsome : 0 * chunkSize < (decText k).length := by
    exact length_counter_pos k
  have haddr : u32 (c + 8 * 0) = c := u32_of_lt (Nat.lt_of_succ_lt hc)
  obtain ⟨slot, buf, hbuf, hcall⟩ := writeChunk_eq fs c hsome
  rw [haddr, chunkLen_counter hk, (counter_sectors hk).1] at hcall
  rw [chunkLen_counter hk] at hbuf
  rw [(counter_sectors hk).2, writeChunks, writeChunks] at hloop
  dsimp only at hloop
  rw [hcall] at hloop
  split_ifs at hloop with hrefused
  · cases hloop
  obtain ⟨_, rfl⟩ := Prod.mk.inj hloop
  refine ⟨fun j hj => ?_, ?_⟩
  · have hbyte := hbuf j hj
    rw [Nat.zero_mul, Nat.zero_add] at hbyte
    refine Eq.trans (overwrite_inside ?_) hbyte
    exact Nat.lt_of_lt_of_le hj (hle.trans (by decide))
  have hin := Fs.range_of_not_refused (Bool.not_eq_true _ ▸ hrefused)
  exact hin

structure Slotted (fs : Fs) (c : Nat) (i : Fin afsMaxFiles) (d : Dir) (ram : Ram) : Prop where
  start : 2 ≤ c
  stop : c + 1 < 2 ^ 32
  base : ram.base = afsBaseLba
  free : ram.freeExtents = []
  next : c < ram.nextFreeLba
  found : findName d bootName = some i
  entry : (d i).startLba = c
  same : ∀ j, j ≠ i → d j = fs.dir j
  only : ∀ j, (fs.dir j).Live → cstr (fs.dir j).name = cstr bootName → j = i
  others : ∀ j, (fs.dir j).Live → cstr (fs.dir j).name ≠ cstr bootName →
    (fs.dir j).size + (sectSize - 1) < 2 ^ 32 ∧ Avoids (some c) (fs.dir j).extent

namespace Slotted

variable {fs fs' : Fs} {c k : Nat} {i : Fin afsMaxFiles} {d : Dir} {ram : Ram}
variable (h : Slotted fs c i d ram)
include h

lemma live (len : Nat) : ((d i).setSize len).Live := by
  have hentry := h.entry
  have hstart := h.start
  show (d i).startLba ≠ 0
  omega

variable {j : Fin afsMaxFiles}

lemma other (e : Dirent) (hj : j ≠ i) : update d i e j = fs.dir j := by
  rw [update_of_ne hj, h.same j hj]

lemma unique (e : Dirent) (hlive : (update d i e j).Live)
  (hname : cstr (update d i e j).name = cstr bootName) : j = i := by
  by_contra hj
  rw [h.other e hj] at hlive hname
  exact hj (h.only j hlive hname)

lemma clear (hvalid : fs'.superblock.valid = true) (hstart : 2 ≤ fs'.superblock.dataStartLba)
  (hram : fs'.ram = { ram with iobuf := fs'.ram.iobuf }) (len : Nat) :
  ClearOf bootName (some c) (fs'.stored afsDirLba
    (dirEncode (update d i ((d i).setSize len))) 1) := by
  have hbase : fs'.ram.base = afsBaseLba := by
    rw [hram]
    exact h.base
  have hfree : fs'.ram.freeExtents = [] := by
    rw [hram]
    exact h.free
  have hnext : c < fs'.ram.nextFreeLba := by
    rw [hram]
    exact h.next
  have hsuperblock := superblock_flushed (by rw [hbase]; decide)
    (update d i ((d i).setSize len))
  refine ⟨hbase, ?_, fun _ => hsuperblock ▸ hstart, fun _ j hlive hname => ?_, ?_, fun _ => ?_⟩
  · intro s hs
    obtain rfl : c = s := some.inj hs
    exact ⟨h.start, Nat.lt_of_succ_lt h.stop⟩
  · rw [dir_flushed] at hlive hname ⊢
    by_cases hj : j = i
    · subst hj
      rw [update_self] at hname
      exact absurd (findName_some h.found).2 hname
    rw [h.other _ hj] at hlive hname ⊢
    exact h.others j hlive hname
  · show ∀ e ∈ fs'.ram.freeExtents, Avoids (some c) e
    rw [hfree]
    intro e he
    cases he
  refine ⟨hsuperblock ▸ hvalid, h.start.trans hnext.le, fun s hs => ?_⟩
  obtain rfl : c = s := some.inj hs
  exact hnext

lemma holds (hk : k < 2 ^ 32)
  (htext : ∀ j < (decText k).length, fs'.sector c j = (decText k).getD j 0)
  (hroom : u32 (fs'.ram.base + c) + 1 ≤ fs'.dev.sectors) : Holds (fs'.stored afsDirLba
    (dirEncode (update d i ((d i).setSize (decText k).length))) 1) c k := by
  have hle := length_counter_le hk
  have hname := (findName_some h.found).2
  refine ⟨hk, h.stop, ⟨i, ?_, ?_, ?_⟩, ?_, fun j hj => ?_, hroom⟩
  · rw [dir_flushed, findName_update]
    · exact if_pos ⟨h.live _, hname⟩
    intro j hj hlive hjname
    rw [h.same j hj] at hlive hjname
    exact hj (h.only j hlive hjname)
  · rw [dir_flushed, update_self]
    exact h.entry
  · rw [dir_flushed, update_self]
    exact size_setSize _ (hle.trans (by decide))
  · rw [dir_flushed]
    intro j j' hlive hjname hlive' hjname'
    exact (h.unique _ hlive hjname).trans (h.unique _ hlive' hjname').symm
  have hout : ¬ Extent.Has ⟨afsDirLba, 1⟩ c := by
    rintro ⟨_, hlast⟩
    exact absurd (Nat.lt_of_lt_of_le hlast h.start) (Nat.lt_irrefl c)
  have hkept := SectorKept.stored (Nat.lt_of_succ_lt h.stop) (by decide) hout fs'
    (dirEncode (update d i ((d i).setSize (decText k).length)))
  exact (hkept j (Nat.lt_of_lt_of_le hj (hle.trans (by decide)))).trans (htext j hj)

end Slotted

lemma counter_written (hk : k < 2 ^ 32) (hvalid : fs.superblock.valid = true)
  (hstart : 2 ≤ fs.superblock.dataStartLba) (hbase : fs.ram.base = afsBaseLba)
  (hslot : ∀ {c d ram}, placeFile fs.ram fs.dir bootName 1 = (some (c, d), ram) →
    ∃ i, Slotted fs c i d ram)
  (hwrote : (afsWrite fs (some bootName) (some (decText k))).1.isSome = true) :
  ∃ c, ClearOf bootName (some c) (afsWrite fs (some bootName) (some (decText k))).2 ∧
    Holds (afsWrite fs (some bootName) (some (decText k))).2 c k := by
  rcases afsWrite_cases fs (some bootName) (some (decText k)) with
    heq | ⟨name, bytes, hname, hbytes, hargs, hresult⟩
  · rw [heq] at hwrote
    cases hwrote
  obtain rfl : bootName = name := some.inj hname
  obtain rfl : decText k = bytes := some.inj hbytes
  generalize afsWrite fs (some bootName) (some (decText k)) = result at hresult hwrote
  obtain ⟨code, fs'⟩ := result
  cases hresult with
  | unread | noRoom | broken | nameless | unflushed => cases hwrote
  | @written c d ram fs' i' hplace hloop hfound =>
    rw [(counter_sectors hk).1] at hplace
    obtain ⟨i, hi⟩ := hslot hplace
    obtain rfl : i = i' := some.inj (hi.found.symm.trans hfound)
    have hsame := hi.base.trans hbase.symm
    have hmeta := writeChunks_meta { fs.counted with ram := ram } (decText k) hi.start
      (by rw [(counter_sectors hk).1]; exact hi.stop) _ le_rfl
    rw [hloop] at hmeta
    have hsuperblock : fs'.superblock = fs.superblock :=
      (hmeta.superblock (by rw [hi.base]; decide)).trans (Fs.superblock_withRam hsame)
    obtain ⟨htext, hroom⟩ := writeChunks_counter hk hi.stop hloop
    exact ⟨c, hi.clear (hsuperblock ▸ hvalid) (hsuperblock ▸ hstart) hmeta.ram _,
      hi.holds hk htext hroom⟩

/-! ## A boot -/

structure Ready (c : Option Nat) (fs : Fs) : Prop where
  clear : ClearOf bootName c fs
  mounted : fs.ram.mounted = true
  free : fs.ram.freeExtents = []
  past : ∀ i, (fs.dir i).Live → cstr (fs.dir i).name ≠ cstr bootName →
    (fs.dir i).extent.stop ≤ fs.ram.nextFreeLba

namespace Ready

variable {c : Option Nat} {fs fs' : Fs}

lemma of_readOnly (h : Ready c fs) (hread : ReadOnly fs fs') : Ready c fs' := by
  refine ⟨h.clear.of_meta hread.meta, ?_, ?_, ?_⟩
  · rw [hread.ram]
    exact h.mounted
  · rw [hread.ram]
    exact h.free
  rw [hread.meta.dir h.clear.base_le, hread.ram]
  exact h.past

lemma others (h : Ready c fs) (i : Fin afsMaxFiles) (hlive : (fs.dir i).Live)
  (hname : cstr (fs.dir i).name ≠ cstr bootName) :
  (fs.dir i).size + (sectSize - 1) < 2 ^ 32 ∧ Avoids c (fs.dir i).extent :=
  h.clear.files (h.clear.mounted h.mounted).1 i hlive hname

lemma slotted_first (h : Ready none fs) (hnone : findName fs.dir bootName = none)
  (hnext : fs.ram.nextFreeLba + 1 < 2 ^ 32) {c : Nat} {d : Dir} {ram : Ram}
  (hplace : placeFile fs.ram fs.dir bootName 1 = (some (c, d), ram)) :
  ∃ i, Slotted fs c i d ram := by
  have hnofree : ∀ e, e ∉ fs.ram.freeExtents := by
    intro e he
    rw [h.free] at he
    cases he
  cases hslot : (List.finRange afsMaxFiles).find? fun i => (fs.dir i).startLba = 0 with
  | none =>
    rw [placeFile_full hnone hslot] at hplace
    cases hplace
  | some i =>
    rw [placeFile_created hnone hslot] at hplace
    rcases allocSectors_inversion (n := 1) (fun e he => absurd he (hnofree e))
        (fun e he => absurd he (hnofree e)) with
      ⟨_, _, hcall⟩ | ⟨_, _, hcall⟩ | ⟨e, others, l, hperm, _⟩
    · rw [hcall] at hplace
      cases hplace
    · rw [hcall] at hplace
      obtain ⟨hchosen, rfl⟩ := Prod.mk.inj hplace
      obtain ⟨rfl, rfl⟩ := Prod.mk.inj (some.inj hchosen)
      have hlow := (h.clear.mounted h.mounted).2.1
      have hlive : ((Dirent.fresh bootName).setStart fs.ram.nextFreeLba).Live :=
        live_setStart _ (by omega) (Nat.lt_of_succ_lt hnext)
      have hname := (cstr_nameField_eq_iff bootName).mpr (by decide)
      refine ⟨i, hlow, hnext, h.clear.base, h.free, ?_, ?_, ?_, ?_, ?_, fun j hlive hname => ?_⟩
      · rw [u32_of_lt hnext]
        exact Nat.lt_succ_self _
      · rw [findName_update fun j _ hj => findName_none hnone hj]
        exact if_pos ⟨hlive, hname⟩
      · rw [update_self]
        exact u32_of_lt (Nat.lt_of_succ_lt hnext)
      · exact fun j hj => update_of_ne hj _ _
      · exact fun j hj hjname => absurd hjname (findName_none hnone hj)
      obtain ⟨hsize, hlo, hhi, _⟩ := h.others j hlive hname
      refine ⟨hsize, hlo, hhi, fun s hs hhas => ?_⟩
      obtain rfl : fs.ram.nextFreeLba = s := some.inj hs
      exact absurd (Nat.lt_of_lt_of_le hhas.2 (h.past j hlive hname)) (Nat.lt_irrefl _)
    · exact absurd (hperm.mem_iff.mpr mem_cons_self) (hnofree e)

lemma slotted_again {c k : Nat} (h : Ready (some c) fs) (hholds : Holds fs c k) {c' : Nat}
  {d : Dir} {ram : Ram} (hplace : placeFile fs.ram fs.dir bootName 1 = (some (c', d), ram)) :
  ∃ i, Slotted fs c' i d ram := by
  obtain ⟨i, hfound, hstart, hsize⟩ := hholds.entry
  have hfits : 1 ≤ nlbasOf (fs.dir i).size := by
    rw [hsize, nlbasOf_eq ((length_counter_le hholds.count).trans (by decide))]
    exact (counter_sectors hholds.count).1.ge
  rw [placeFile_inPlace hfound hfits] at hplace
  obtain ⟨hchosen, rfl⟩ := Prod.mk.inj hplace
  obtain ⟨rfl, rfl⟩ := Prod.mk.inj (some.inj hchosen)
  obtain ⟨hlive, hname⟩ := findName_some hfound
  obtain ⟨_, _, hpast⟩ := h.clear.mounted h.mounted
  subst hstart
  exact ⟨i, (h.clear.slot _ rfl).1, hholds.stop, h.clear.base, h.free, hpast _ rfl, hfound, rfl,
    fun _ _ => rfl, fun j hj hjname => hholds.only j i hj hjname hlive hname, h.others⟩

variable {formatted : Bool}

lemma first (h : Ready none fs) (hnone : findName fs.dir bootName = none)
  (hnext : fs.ram.nextFreeLba + 1 < 2 ^ 32)
  (hwrote : (countBoot formatted fs).wrote.isSome = true) :
  (countBoot formatted fs).read = none ∧ (countBoot formatted fs).printed = 1 ∧
    ∃ c, ClearOf bootName (some c) (countBoot formatted fs).fs ∧
      Holds (countBoot formatted fs).fs c 1 := by
  have hread := afsRead_absent hnone 1 15
  have hkept := afsRead_readOnly fs (some bootName) 1 15
  have hready := h.of_readOnly hkept
  have hcount : u32 (storedCount (afsRead fs (some bootName) 1 15).1 + 1) = 1 := by
    rw [hread]
    rfl
  simp only [countBoot, hcount] at hwrote ⊢
  refine ⟨hread, trivial, ?_⟩
  obtain ⟨hvalid, _, _⟩ := hready.clear.mounted hready.mounted
  apply counter_written (by decide) hvalid (hready.clear.start hvalid) hready.clear.base _ hwrote
  intro c d ram hplace
  refine hready.slotted_first ?_ ?_ hplace
  · rw [hkept.meta.dir h.clear.base_le]
    exact hnone
  rw [hkept.ram]
  exact hnext

lemma again {c k : Nat} (h : Ready (some c) fs) (hholds : Holds fs c k)
  (hload : fs.refuses afsDirLba 1 = false) (hfault : fs.dev.fault (fs.dev.reqs + 1) = false)
  (hwrote : (countBoot formatted fs).wrote.isSome = true) :
  (countBoot formatted fs).read = some (decText k) ∧
    (countBoot formatted fs).printed = u32 (k + 1) ∧
    ∃ c, ClearOf bootName (some c) (countBoot formatted fs).fs ∧
      Holds (countBoot formatted fs).fs c (u32 (k + 1)) := by
  have hread := hholds.read h.mounted hload hfault
  have hkept := afsRead_readOnly fs (some bootName) 1 15
  have hready := h.of_readOnly hkept
  have hstored : storedCount (afsRead fs (some bootName) 1 15).1 = k := by
    rw [hread, storedCount, if_pos (length_counter_pos k), readDec_decText]
    exact Nat.mod_eq_of_lt hholds.count
  simp only [countBoot, hstored] at hwrote ⊢
  refine ⟨hread, trivial, ?_⟩
  obtain ⟨hvalid, _, _⟩ := hready.clear.mounted hready.mounted
  apply counter_written (u32_lt _) hvalid (hready.clear.start hvalid) hready.clear.base _ hwrote
  intro c d ram hplace
  exact hready.slotted_again (hholds.beside (.of_readOnly h.clear.base hkept)) hplace

end Ready

lemma mounted_of_wrote {name data : Option (List UInt8)}
  (hwrote : (afsWrite fs name data).1.isSome = true) :
  fs.ram.mounted = true ∧ u32 (fs.ram.base + afsDirLba) + 1 ≤ fs.dev.sectors := by
  rcases afsWrite_cases fs name data with heq | ⟨name, bytes, rfl, rfl, hargs, _⟩
  · rw [heq] at hwrote
    cases hwrote
  refine ⟨hargs.1, Fs.range_of_not_refused ?_⟩
  by_contra hrefused
  have hguard := afsWrite_guard fs bytes
  simp only [afsWrite, hguard, decide_eq_true hargs, dirLoad_eq,
    Bool.not_eq_false _ ▸ hrefused] at hwrote
  cases hwrote

lemma mounted_of_counted {formatted : Bool}
  (hwrote : (countBoot formatted fs).wrote.isSome = true) :
  fs.ram.mounted = true ∧ u32 (fs.ram.base + afsDirLba) + 1 ≤ fs.dev.sectors := by
  have hkept := afsRead_readOnly fs (some bootName) 1 15
  obtain ⟨hmounted, hrange⟩ := mounted_of_wrote hwrote
  rw [hkept.ram] at hmounted hrange
  rw [hkept.sectors] at hrange
  exact ⟨hmounted, hrange⟩

lemma Ready.formatted (hram : fs.ram = { Ram.boot with iobuf := fs.ram.iobuf }) :
  Ready none fs.formatted ∧ findName fs.formatted.dir bootName = none := by
  have hbase : fs.ram.base = afsBaseLba := by
    rw [hram]
    rfl
  have hfree : fs.ram.freeExtents = [] := by
    rw [hram]
    rfl
  have hsuperblock := Fs.superblock_formatted (by rw [hbase]; decide)
  have hdead := fs.not_live_formatted
  refine ⟨⟨⟨hbase, ?_, ?_, ?_, ?_, ?_⟩, rfl, hfree, ?_⟩, ?_⟩
  · intro s hs
    cases hs
  · rw [hsuperblock]
    exact fun _ => le_rfl
  · exact fun _ i hlive => absurd hlive (hdead i)
  · show ∀ e ∈ fs.ram.freeExtents, Avoids none e
    rw [hfree]
    intro e he
    cases he
  · rw [hsuperblock]
    exact fun _ => ⟨rfl, le_rfl, fun s hs => by cases hs⟩
  · exact fun i hlive => absurd hlive (hdead i)
  cases hfound : findName fs.formatted.dir bootName with
  | none => rfl
  | some i => exact absurd (findName_some hfound).1 (hdead i)

lemma afsMount_restarted (hok : fs.restarted.Mountable) : ∃ ram : Ram,
  ram.base = afsBaseLba ∧ ram.mounted = true ∧ ram.freeExtents = [] ∧
    ram.nextFreeLba = fs.restarted.resumed ∧
    afsMount fs.restarted = (true, { fs.counted.counted with ram := ram }) := by
  rcases afsMount_cases fs.restarted with ⟨hnot, _⟩ | ⟨_, iobuf, hcall⟩
  · exact absurd hok hnot
  · exact ⟨_, rfl, rfl, rfl, rfl, hcall⟩

lemma Ready.mount {c : Option Nat} (h : ClearOf bootName c fs) (hok : fs.restarted.Mountable)
  (hload : fs.restarted.counted.refuses afsDirLba 1 = false)
  (hown : ∀ s ∈ c, ∃ i, (fs.dir i).Live ∧ s < (fs.dir i).endLba) :
  ∃ fs', mountOrFormat fs.restarted = (false, fs') ∧ Ready c fs' ∧ Beside bootName c fs fs' ∧
    fs'.ram.nextFreeLba = fs.restarted.resumed ∧ fs'.dev = fs.counted.counted.dev := by
  have hdir : fs.restarted.dir = fs.dir := Fs.dir_withRam h.base.symm
  have hsuperblock : fs.restarted.superblock = fs.superblock := Fs.superblock_withRam h.base.symm
  have hvalid := hsuperblock ▸ hok.2.2
  have hresumed : fs.restarted.resumed = resumeLba fs.superblock.dataStartLba fs.dir := by
    rw [Fs.resumed, hload, if_neg Bool.false_ne_true, hsuperblock, hdir]
  obtain ⟨hlow, hends, _⟩ := resumeLba_bounds fs.dir fs.superblock.dataStartLba
  obtain ⟨ram, hbase, hmounted, hfree, hnext, hcall⟩ := afsMount_restarted hok
  rw [← hresumed, ← hnext] at hlow hends
  have hsame := hbase.trans h.base.symm
  have hdir' : Fs.dir { fs.counted.counted with ram := ram } = fs.dir := Fs.dir_withRam hsame
  have hcounted := h.of_meta (MetaKept.counted fs)
  refine ⟨{ fs.counted.counted with ram := ram }, ?_, ⟨?_, hmounted, hfree, ?_⟩, ?_, hnext, rfl⟩
  · rw [mountOrFormat, hcall]
  · refine hcounted.withRam hsame ?_ fun _ => ⟨hvalid, (h.start hvalid).trans hlow, fun s hs => ?_⟩
    · rw [hfree]
      intro e he
      cases he
    obtain ⟨i, hlive, hlt⟩ := hown s hs
    exact Nat.lt_of_lt_of_le hlt (hends i hlive)
  · rw [hdir']
    intro i hlive hname
    obtain ⟨hsize, _, hstop, _⟩ := h.files hvalid i hlive hname
    rw [← endLba_eq hsize hstop]
    exact hends i hlive
  have hbeside : Beside bootName c fs fs.counted := .of_readOnly h.base (ReadOnly.counted fs)
  exact hbeside.trans (.withRam hsame)

inductive CountInv : Counted → Prop
  /-- No boot yet. -/
  | absent {fs : Fs} (hclear : ClearOf bootName none fs)
      (hnone : fs.superblock.valid = true → findName fs.dir bootName = none) : CountInv ⟨fs, none⟩
  | present {fs : Fs} {c k : Nat} (hclear : ClearOf bootName (some c) fs) (hholds : Holds fs c k) :
      CountInv ⟨fs, some k⟩

namespace CountInv

variable {s : Counted}

lemma init (hinit : bootMachine.init s) : CountInv s := by
  obtain ⟨fs, last⟩ := s
  obtain ⟨hram, hlast, hfiles⟩ := hinit
  subst hlast
  refine .absent ⟨?_, ?_, fun hvalid => (hfiles hvalid).start, fun hvalid i hlive _ => ?_, ?_, ?_⟩
    fun hvalid => (hfiles hvalid).absent
  · rw [hram]
    rfl
  · intro s hs
    cases hs
  · obtain ⟨hsize, hlo, hhi⟩ := (hfiles hvalid).files i hlive
    exact ⟨hsize, hlo, hhi, fun s hs => by cases hs⟩
  · rw [hram]
    intro e he
    cases he
  rw [hram]
  intro hmounted
  cases hmounted

lemma beside (h : CountInv s) {fs' : Fs}
  (hcall : ∀ c, ClearOf bootName c s.fs → ClearOf bootName c fs' ∧ Beside bootName c s.fs fs') :
  CountInv ⟨fs', s.last⟩ := by
  cases h with
  | absent hclear hnone =>
    obtain ⟨hclear', hbeside⟩ := hcall none hclear
    refine .absent hclear' fun hvalid => ?_
    rw [hbeside.findName_eq]
    exact hnone (hbeside.superblock ▸ hvalid)
  | present hclear hholds =>
    obtain ⟨hclear', hbeside⟩ := hcall _ hclear
    exact .present hclear' (hholds.beside hbeside)

lemma boot_formatted (hnot : ¬ s.fs.restarted.Mountable)
  (hwrote : (boot s.fs).wrote.isSome = true) :
  (boot s.fs).formatted = true ∧ (boot s.fs).read = none ∧ (boot s.fs).printed = 1 ∧
    CountInv ⟨(boot s.fs).fs, some (boot s.fs).printed⟩ := by
  rcases afsMount_cases s.fs.restarted with ⟨_, hfailed, hmeta⟩ | ⟨hok, _⟩
  · have hready : mountOrFormat s.fs.restarted =
        (true, (afsFormat (afsMount s.fs.restarted).2).2) := by
      rw [mountOrFormat]
      split
      next heq => exact absurd (hfailed.symm.trans (congrArg Prod.fst heq)) Bool.false_ne_true
      next heq => rw [heq]
    simp only [boot, hready] at hwrote ⊢
    have hram : (afsMount s.fs.restarted).2.ram = { Ram.boot with
        iobuf := (afsMount s.fs.restarted).2.ram.iobuf } := hmeta.ram
    have hbase : (afsMount s.fs.restarted).2.ram.base = afsBaseLba := by
      rw [hram]
      rfl
    rcases afsFormat_cases (by rw [hbase]; decide) with ⟨_, ⟨iobuf, hsame⟩, _⟩ | ⟨hcall, _⟩
    · -- A failed format leaves the volume unmounted, and then nothing is written.
      have hmounted := (mounted_of_counted hwrote).1
      rw [hsame, hram] at hmounted
      cases hmounted
    rw [hcall] at hwrote ⊢
    obtain ⟨hfresh, hnone⟩ := Ready.formatted hram
    obtain ⟨hread, hprinted, c, hclear, hholds⟩ :=
      hfresh.first hnone (show 2 + 1 < 2 ^ 32 by decide) hwrote
    refine ⟨rfl, hread, hprinted, ?_⟩
    rw [hprinted]
    exact .present hclear hholds
  · exact absurd hok hnot

lemma boot_mounted (h : CountInv s) (hok : s.fs.restarted.Mountable)
  (hwrote : (boot s.fs).wrote.isSome = true) (hguard : bootGuard s .boot) :
  (boot s.fs).formatted = false ∧ (boot s.fs).printed = s.next ∧
    (∀ bytes, (boot s.fs).read = some bytes → bytes.length ≤ 10) ∧
    CountInv ⟨(boot s.fs).fs, some (boot s.fs).printed⟩ := by
  obtain ⟨hfault, hnext⟩ := hguard hok
  -- The write at the end of the boot has found the directory on the device.
  have hroom : u32 (s.fs.restarted.counted.ram.base + afsDirLba) + 1 ≤
      s.fs.restarted.counted.dev.sectors := by
    obtain ⟨ram, hbase, _, _, _, hcall⟩ := afsMount_restarted hok
    have hready : mountOrFormat s.fs.restarted =
        (false, { s.fs.counted.counted with ram := ram }) := by rw [mountOrFormat, hcall]
    rw [boot, hready] at hwrote
    have hrange := (mounted_of_counted hwrote).2
    rwa [show ram.base = s.fs.restarted.counted.ram.base from hbase] at hrange
  have hload := (Fs.refuses_eq_fault hroom).trans (hfault 0 (by decide))
  cases h with
  | @absent fs hclear hnone =>
    obtain ⟨fs', hready, hmounted, hbeside, hnext', _⟩ :=
      Ready.mount hclear hok hload fun s hs => by cases hs
    have hsuperblock : fs.restarted.superblock = fs.superblock :=
      Fs.superblock_withRam hclear.base.symm
    have habsent := hnone (hsuperblock ▸ hok.2.2)
    rw [boot, hready] at hwrote ⊢
    obtain ⟨hread, hprinted, c, hclear', hholds⟩ := hmounted.first
      (hbeside.findName_eq.trans habsent) (hnext' ▸ hnext habsent) hwrote
    refine ⟨rfl, hprinted, fun bytes hbytes => ?_, ?_⟩
    · rw [hread] at hbytes
      cases hbytes
    rw [hprinted]
    exact .present hclear' hholds
  | @present fs c k hclear hholds =>
    obtain ⟨fs', hready, hmounted, hbeside, _, hdev⟩ :=
      Ready.mount hclear hok hload fun s hs => by
        obtain rfl : c = s := some.inj hs
        exact hholds.ends
    have hload' : fs'.refuses afsDirLba 1 = false := by
      refine (Fs.refuses_eq_fault ?_).trans ?_
      · rw [hmounted.clear.base, hbeside.sectors]
        exact hroom
      rw [hdev]
      exact hfault 1 (by decide)
    have hfault' : fs'.dev.fault (fs'.dev.reqs + 1) = false := by
      rw [hdev]
      exact hfault 2 (by decide)
    rw [boot, hready] at hwrote ⊢
    obtain ⟨hread, hprinted, c', hclear', hholds'⟩ :=
      hmounted.again (hholds.beside hbeside) hload' hfault' hwrote
    refine ⟨rfl, hprinted, fun bytes hbytes => ?_, ?_⟩
    · obtain rfl : decText k = bytes := some.inj (hread.symm.trans hbytes)
      exact length_counter_le hholds.count
    rw [hprinted]
    exact .present hclear' hholds'

lemma step (h : CountInv s) (e : BootEvent) (henabled : bootMachine.enabled s e)
  (hguard : bootGuard s e) : CountInv (bootReact s e) := by
  cases e with
  | boot =>
    by_cases hok : s.fs.restarted.Mountable
    · exact (h.boot_mounted hok henabled hguard).2.2.2
    · exact (boot_formatted hok henabled).2.2.2
  | format =>
    have hdone : afsFormat s.fs.restarted = (true, (afsFormat s.fs.restarted).2) :=
      Prod.ext henabled rfl
    obtain ⟨heq, _⟩ := afsFormat_some hdone
    have hram : s.fs.restarted.ram = { Ram.boot with iobuf := s.fs.restarted.ram.iobuf } := rfl
    obtain ⟨hfresh, hnone⟩ := Ready.formatted hram
    rw [bootReact, heq]
    exact .absent hfresh.clear fun _ => hnone
  | write name data => exact h.beside fun c hclear => hclear.write henabled hguard
  | delete name => exact h.beside fun c hclear => hclear.delete henabled
  | read name buf max =>
    have hkept := afsRead_readOnly s.fs name buf max
    exact h.beside fun c hclear => ⟨hclear.of_meta hkept.meta, .of_readOnly hclear.base hkept⟩

end CountInv

/-- In every run whose steps meet the condition, a boot prints one more than the boot before it,
or 1 if it is the first since a format; and the texts it reads and writes fit their buffers. -/
theorem boot_counter_counts {s : Counted} (hreach : (bootMachine.restrict bootGuard).Reachable s)
  (henabled : bootMachine.enabled s .boot) (hguard : bootGuard s .boot) :
  (boot s.fs).printed = (if (boot s.fs).formatted then 1 else s.next) ∧
  (peelDigits (boot s.fs).printed).length ≤ 12 ∧
  (decText (boot s.fs).printed).length + 1 ≤ 12 ∧
  ∀ bytes, (boot s.fs).read = some bytes → bytes.length + 1 ≤ 16 := by
  have hinv : CountInv s := by
    refine hreach.invariant CountInv ?_ ?_
    · intro s hinit
      exact CountInv.init hinit
    intro s e h henabled
    exact h.step e henabled.1 henabled.2
  have hcount : (boot s.fs).printed < 2 ^ 32 := u32_lt _
  have hdigits : (peelDigits (boot s.fs).printed).length ≤ 10 :=
    length_peelDigits_le (hcount.trans (by decide))
  have htext := length_counter_le hcount
  refine ⟨?_, hdigits.trans (by decide), by omega, fun bytes hbytes => ?_⟩
  · by_cases hok : s.fs.restarted.Mountable
    · obtain ⟨hformatted, hprinted, _⟩ := hinv.boot_mounted hok henabled hguard
      rw [hformatted]
      exact hprinted
    obtain ⟨hformatted, _, hprinted, _⟩ := CountInv.boot_formatted hok henabled
    rw [hformatted]
    exact hprinted
  by_cases hok : s.fs.restarted.Mountable
  · have hread := (hinv.boot_mounted hok henabled hguard).2.2.1 bytes hbytes
    omega
  obtain ⟨_, hread, _⟩ := CountInv.boot_formatted hok henabled
  rw [hread] at hbytes
  cases hbytes

def bootedOnce : Counted :=
  [BootEvent.boot, .write (some [97]) (some [1])].foldl bootReact ⟨blankFs, none⟩

theorem boot_counter_counts_second : bootedOnce.last = some 1 ∧
  (boot bootedOnce.fs).formatted = false ∧ (boot bootedOnce.fs).printed = 2 := by
  have hrun : (bootMachine.restrict bootGuard).Run ⟨blankFs, none⟩
      [.boot, .write (some [97]) (some [1])] bootedOnce := by
    refine .cons ⟨?_, fun hok => ?_⟩ (.cons ⟨fun name hname => ?_,
      fun name bytes _ hbytes _ _ => ?_⟩
      (.nil _))
    · show (boot blankFs).wrote.isSome = true
      decide +kernel
    · exact absurd hok.2.2 (by decide +kernel)
    · obtain rfl : [97] = name := some.inj hname
      decide
    obtain rfl : [1] = bytes := some.inj hbytes
    decide +kernel
  have hinit : bootMachine.init ⟨blankFs, none⟩ :=
    ⟨rfl, rfl, fun hvalid => absurd hvalid (by decide +kernel)⟩
  have henabled : bootMachine.enabled bootedOnce .boot := by
    show (boot bootedOnce.fs).wrote.isSome = true
    decide +kernel
  have hcounts := boot_counter_counts ⟨_, _, hinit, hrun⟩ henabled
    fun _ => ⟨by decide +kernel, fun _ => by decide +kernel⟩
  have hlast : bootedOnce.last = some 1 := by decide +kernel
  have hmounts : (boot bootedOnce.fs).formatted = false := by decide +kernel
  refine ⟨hlast, hmounts, ?_⟩
  rw [hcounts.1, hmounts, Counted.next, hlast]
  rfl

def eleventhFails : Fs := { blankFs with dev := { blankFs.dev with fault := fun n => n = 10 } }

/-- The second boot cannot read the counter, prints 1 again and writes it back. -/
theorem unread_counter_restarts : ∃ s : Counted, bootMachine.Reachable s ∧
  bootMachine.enabled s .boot ∧ (boot s.fs).formatted = false ∧ s.last = some 1 ∧
  (boot s.fs).printed ≠ 2 := by
  have hinit : bootMachine.init ⟨eleventhFails, none⟩ :=
    ⟨rfl, rfl, fun hvalid => absurd hvalid (by decide +kernel)⟩
  have henabled : bootMachine.enabled ⟨eleventhFails, none⟩ .boot := by
    show (boot eleventhFails).wrote.isSome = true
    decide +kernel
  refine ⟨_, (Machine.reachable_of_init hinit).step henabled, ?_, ?_, ?_, ?_⟩
  · show (boot (boot eleventhFails).fs).wrote.isSome = true
    decide +kernel
  · show (boot (boot eleventhFails).fs).formatted = false
    decide +kernel
  · decide +kernel
  show (boot (boot eleventhFails).fs).printed ≠ 2
  decide +kernel

end Aeos.Afs
