/-
# What is on the disk

The directory and the superblock as the sectors of the volume hold them, their round
trips, and what each request does to them.
-/

import Aeos.Afs.Model

namespace Aeos.Afs

open Lib

lemma dirEncode_entry (d : Dir) (i : Fin afsMaxFiles) {j : Nat} (hj : j < 32) :
  dirEncode d (32 * i + j) = (d i).byte j := by
  have hdiv : (32 * (i : Nat) + j) / 32 = i := by omega
  have hmod : (32 * (i : Nat) + j) % 32 = j := by omega
  simp only [dirEncode, hdiv, hmod, i.isLt, dif_pos]

lemma dirDecode_congr {b b' : Nat → UInt8} (h : ∀ j < sectSize, b j = b' j) :
  dirDecode b = dirDecode b' := by
  simp only [sectSize] at h
  funext i
  have hi := i.isLt
  simp only [afsMaxFiles] at hi
  refine Dirent.ext ?_ ?_ ?_
  · refine congrArg List.ofFn (funext fun j => h _ ?_)
    have hj := j.isLt
    simp only [afsNameLen] at hj
    omega
  · exact leWord_congr fun k hk => h _ (by omega)
  · exact leWord_congr fun k hk => h _ (by omega)

/-- A directory written out reads back. -/
@[simp]
lemma dirDecode_dirEncode (d : Dir) : dirDecode (dirEncode d) = d := by
  funext i
  refine Dirent.ext ?_ ?_ ?_
  · have hname : ∀ j : Fin afsNameLen, dirEncode d (32 * i + j) = (d i).name.getD j 0 := by
      intro j
      have hj : (j : Nat) < 24 := j.isLt
      rw [dirEncode_entry d i (by omega), Dirent.byte, if_pos hj]
    refine List.ext_getElem (by simp [dirDecode, (d i).name_length]) fun j hj hj' => ?_
    simp only [dirDecode, List.getElem_ofFn]
    rw [hname ⟨j, by simpa [dirDecode] using hj⟩]
    simp [hj']
  · refine leWord_of_leByte (d i).startLba_lt fun k hk => ?_
    rw [Nat.add_assoc, dirEncode_entry d i (by omega), Dirent.byte, if_neg (by omega),
      if_pos (by omega), Nat.add_sub_cancel_left]
  refine leWord_of_leByte (d i).size_lt fun k hk => ?_
  rw [Nat.add_assoc, dirEncode_entry d i (by omega), Dirent.byte, if_neg (by omega),
    if_neg (by omega), Nat.add_sub_cancel_left]

lemma sbDecode_congr {b b' : Nat → UInt8} (h : ∀ j < sectSize, b j = b' j) :
  sbDecode b = sbDecode b' := by
  simp only [sectSize] at h
  simp only [sbDecode, leWord_congr fun k hk => h (0 + k) (by omega),
    leWord_congr fun k hk => h (4 + k) (by omega), leWord_congr fun k hk => h (8 + k) (by omega),
    leWord_congr fun k hk => h (12 + k) (by omega)]

/-- A superblock written out reads back. -/
lemma sbDecode_sbEncode {sb : Superblock} (hmagic : sb.magic < 2 ^ 32)
  (hversion : sb.version < 2 ^ 32) (htotal : sb.totalSectors < 2 ^ 32)
  (hstart : sb.dataStartLba < 2 ^ 32) : sbDecode (sbEncode sb) = sb := by
  have hbyte : ∀ w < 4, ∀ k < 4, sbEncode sb (4 * w + k) = leByte (sb.word w) k := by
    intro w hw k hk
    have hdiv : (4 * w + k) / 4 = w := by omega
    have hmod : (4 * w + k) % 4 = k := by omega
    rw [sbEncode, if_pos (by omega), hdiv, hmod]
  have h₀ := leWord_of_leByte hmagic (hbyte 0 (by decide))
  have h₁ := leWord_of_leByte hversion (hbyte 1 (by decide))
  have h₂ := leWord_of_leByte htotal (hbyte 2 (by decide))
  have h₃ := leWord_of_leByte hstart (hbyte 3 (by decide))
  simp only [sbDecode, h₀, h₁, h₂, h₃]

lemma sbDecode_freshSuperblock (sectors : Nat) :
  sbDecode (sbEncode (freshSuperblock sectors)) = freshSuperblock sectors := by
  have hmagic : afsMagic < 2 ^ 32 := by decide
  have hversion : 1 < 2 ^ 32 := by decide
  have hstart : 2 < 2 ^ 32 := by decide
  exact sbDecode_sbEncode hmagic hversion (u32_lt sectors) hstart

/-! ## Sectors of the volume -/

def Fs.sector (fs : Fs) (lba : Nat) : Nat → UInt8 :=
  fun j => fs.dev.data (u32 (fs.ram.base + lba) * sectSize + j)

def Fs.dir (fs : Fs) : Dir := dirDecode (fs.sector afsDirLba)

def Fs.superblock (fs : Fs) : Superblock := sbDecode (fs.sector afsSbLba)

section
variable {fs : Fs} {ram : Ram} (hbase : ram.base = fs.ram.base)
include hbase

lemma Fs.sector_withRam (lba : Nat) :
  Fs.sector { fs with ram := ram } lba = fs.sector lba := by
  funext j
  simp only [Fs.sector, hbase]

lemma Fs.dir_withRam :
  Fs.dir { fs with ram := ram } = fs.dir := by
  rw [Fs.dir, Fs.dir, sector_withRam hbase]

lemma Fs.superblock_withRam :
  Fs.superblock { fs with ram := ram } = fs.superblock := by
  rw [Fs.superblock, Fs.superblock, sector_withRam hbase]

end

def Fs.counted (fs : Fs) : Fs := { fs with dev := { fs.dev with reqs := fs.dev.reqs + 1 } }

def Fs.refuses (fs : Fs) (lba count : Nat) : Bool :=
  fs.dev.refuses (u32 (fs.ram.base + lba)) count

variable {fs : Fs}

lemma Fs.refuses_eq_fault {lba count : Nat}
  (hrange : u32 (fs.ram.base + lba) + count ≤ fs.dev.sectors) :
  fs.refuses lba count = fs.dev.fault fs.dev.reqs := by
  simp [Fs.refuses, Device.refuses, hrange]

lemma Fs.range_of_not_refused {lba count : Nat} (hok : fs.refuses lba count = false) :
  u32 (fs.ram.base + lba) + count ≤ fs.dev.sectors := by
  simp only [Fs.refuses, Device.refuses, Bool.or_eq_false_iff, decide_eq_false_iff_not] at hok
  exact not_lt.mp hok.2

def Fs.stored (fs : Fs) (lba : Nat) (buf : Nat → UInt8) (n : Nat) : Fs :=
  { fs.counted with
    dev :=
      { fs.counted.dev with
        data := overwrite fs.dev.data (u32 (fs.ram.base + lba) * sectSize) (n * sectSize) buf } }

lemma Fs.stored_data (fs : Fs) (lba : Nat) (buf : Nat → UInt8) (n : Nat) :
  (fs.stored lba buf n).dev.data =
    overwrite fs.dev.data (u32 (fs.ram.base + lba) * sectSize) (n * sectSize) buf := rfl

lemma rdSectors_eq (fs : Fs) (lba : Nat) (buf : Nat → UInt8) {n : Nat} (hn : n ≠ 0) :
  rdSectors fs lba buf n = if fs.refuses lba n then (false, buf, fs.counted)
    else (true, overwrite buf 0 (n * sectSize) (fs.sector lba), fs.counted) := by
  have hdev : fs.dev.refuses (u32 (fs.ram.base + lba)) n = fs.refuses lba n := rfl
  simp only [rdSectors, vblkRead, hn, if_false, hdev]
  cases fs.refuses lba n <;> rfl

lemma wrSectors_eq (fs : Fs) (lba : Nat) (buf : Nat → UInt8) {n : Nat} (hn : n ≠ 0) :
  wrSectors fs lba buf n =
    if fs.refuses lba n then (false, fs.counted) else (true, fs.stored lba buf n) := by
  have hdev : fs.dev.refuses (u32 (fs.ram.base + lba)) n = fs.refuses lba n := rfl
  simp only [wrSectors, vblkWrite, hn, if_false, hdev]
  cases fs.refuses lba n <;> rfl

lemma dirLoad_eq (fs : Fs) : dirLoad fs =
    if fs.refuses afsDirLba 1 then (none, fs.counted) else (some fs.dir, fs.counted) := by
  rw [dirLoad, rdSectors_eq _ _ _ one_ne_zero]
  split_ifs
  · rfl
  have hdir : dirDecode (overwrite (fun _ => 0) 0 (1 * sectSize) (fs.sector afsDirLba)) =
      fs.dir :=
    dirDecode_congr fun j hj => overwrite_zero (by rwa [Nat.one_mul])
  dsimp only
  rw [hdir]

lemma dirFlush_eq (fs : Fs) (d : Dir) : dirFlush fs d =
    if fs.refuses afsDirLba 1 then (false, fs.counted)
    else (true, fs.stored afsDirLba (dirEncode d) 1) :=
  wrSectors_eq _ _ _ one_ne_zero

lemma dir_flushed (fs : Fs) (d : Dir) : (fs.stored afsDirLba (dirEncode d) 1).dir = d := by
  refine (dirDecode_congr fun j hj => ?_).trans (dirDecode_dirEncode d)
  exact overwrite_inside (by rwa [Nat.one_mul])

lemma superblock_flushed (hbase : fs.ram.base + 2 ≤ 2 ^ 32) (d : Dir) :
  (fs.stored afsDirLba (dirEncode d) 1).superblock = fs.superblock := by
  refine sbDecode_congr fun j hj => overwrite_outside (.inl ?_)
  have hsame : (fs.stored afsDirLba (dirEncode d) 1).ram.base = fs.ram.base := rfl
  have hnext : u32 (fs.ram.base + afsSbLba) + 1 = u32 (fs.ram.base + afsDirLba) := by
    simp only [u32, afsSbLba, afsDirLba]
    omega
  rw [hsame, ← hnext, Nat.add_mul, Nat.one_mul]
  exact Nat.add_lt_add_left hj _

lemma dir_stored_superblock (hbase : fs.ram.base + 2 ≤ 2 ^ 32) (buf : Nat → UInt8) :
  (fs.stored afsSbLba buf 1).dir = fs.dir := by
  refine dirDecode_congr fun j _ => overwrite_outside (.inr ?_)
  have hsame : (fs.stored afsSbLba buf 1).ram.base = fs.ram.base := rfl
  have hnext : u32 (fs.ram.base + afsSbLba) + 1 = u32 (fs.ram.base + afsDirLba) := by
    simp only [u32, afsSbLba, afsDirLba]
    omega
  rw [hsame, ← hnext, ← Nat.add_mul]
  exact Nat.le_add_right _ _

/-! ## Requests that leave the metadata alone -/

structure MetaKept (fs fs' : Fs) : Prop where
  ram : fs'.ram = { fs.ram with iobuf := fs'.ram.iobuf }
  sectors : fs'.dev.sectors = fs.dev.sectors
  fault : fs'.dev.fault = fs.dev.fault
  data : ∀ a, fs.ram.base * sectSize ≤ a → a < (fs.ram.base + 2) * sectSize →
    fs'.dev.data a = fs.dev.data a

namespace MetaKept

lemma refl (fs : Fs) : MetaKept fs fs := ⟨rfl, rfl, rfl, fun _ _ _ => rfl⟩

lemma counted (fs : Fs) : MetaKept fs fs.counted := ⟨rfl, rfl, rfl, fun _ _ _ => rfl⟩

lemma setBuf (fs : Fs) (slot : Nat) (buf : Nat → UInt8) : MetaKept fs (fs.setBuf slot buf) :=
  ⟨rfl, rfl, rfl, fun _ _ _ => rfl⟩

lemma base {fs fs' : Fs} (h : MetaKept fs fs') : fs'.ram.base = fs.ram.base := by rw [h.ram]

lemma trans {fs fs' fs'' : Fs} (h : MetaKept fs fs') (h' : MetaKept fs' fs'') :
  MetaKept fs fs'' where
  ram := by rw [h'.ram, h.ram]
  sectors := h'.sectors.trans h.sectors
  fault := h'.fault.trans h.fault
  data a hlo hhi := by
    rw [← h.base] at hlo hhi
    rw [h'.data a hlo hhi]
    rw [h.base] at hlo hhi
    exact h.data a hlo hhi

lemma stored {fs : Fs} {lba n : Nat} (hlba : 2 ≤ lba) (hend : lba + n ≤ 2 ^ 32)
  (buf : Nat → UInt8) : MetaKept fs (fs.stored lba buf n) := by
  refine ⟨rfl, rfl, rfl, fun a hlo hhi => overwrite_outside ?_⟩
  simp only [u32, sectSize] at hlo hhi ⊢
  omega

variable {fs fs' : Fs} (h : MetaKept fs fs')
include h

lemma sector {lba : Nat} (hbase : fs.ram.base + 2 ≤ 2 ^ 32) (hlba : lba < 2) {j : Nat}
    (hj : j < sectSize) : fs'.sector lba j = fs.sector lba j := by
  rw [Fs.sector, Fs.sector, h.base, u32_of_lt (by omega)]
  refine h.data _ ?_ ?_
  · exact (Nat.mul_le_mul_right _ (Nat.le_add_right _ _)).trans (Nat.le_add_right _ _)
  calc (fs.ram.base + lba) * sectSize + j < (fs.ram.base + lba + 1) * sectSize := by
        rw [Nat.add_mul _ 1]
        omega
    _ ≤ (fs.ram.base + 2) * sectSize := Nat.mul_le_mul_right _ (by omega)

lemma dir (hbase : fs.ram.base + 2 ≤ 2 ^ 32) : fs'.dir = fs.dir :=
  dirDecode_congr fun _ hj => h.sector hbase (by decide) hj

lemma superblock (hbase : fs.ram.base + 2 ≤ 2 ^ 32) : fs'.superblock = fs.superblock :=
  sbDecode_congr fun _ hj => h.sector hbase (by decide) hj

end MetaKept

structure ReadOnly (fs fs' : Fs) : Prop where
  ram : fs'.ram = { fs.ram with iobuf := fs'.ram.iobuf }
  sectors : fs'.dev.sectors = fs.dev.sectors
  fault : fs'.dev.fault = fs.dev.fault
  data : fs'.dev.data = fs.dev.data

namespace ReadOnly

lemma refl (fs : Fs) : ReadOnly fs fs := ⟨rfl, rfl, rfl, rfl⟩

lemma counted (fs : Fs) : ReadOnly fs fs.counted := ⟨rfl, rfl, rfl, rfl⟩

lemma setBuf (fs : Fs) (slot : Nat) (buf : Nat → UInt8) : ReadOnly fs (fs.setBuf slot buf) :=
  ⟨rfl, rfl, rfl, rfl⟩

lemma trans {fs fs' fs'' : Fs} (h : ReadOnly fs fs') (h' : ReadOnly fs' fs'') :
  ReadOnly fs fs'' where
  ram := by rw [h'.ram, h.ram]
  sectors := h'.sectors.trans h.sectors
  fault := h'.fault.trans h.fault
  data := h'.data.trans h.data

end ReadOnly

lemma ReadOnly.meta {fs' : Fs} (h : ReadOnly fs fs') : MetaKept fs fs' :=
  ⟨h.ram, h.sectors, h.fault, fun a _ _ => by rw [h.data]⟩

lemma rdSectors_readOnly (fs : Fs) (lba : Nat) (buf : Nat → UInt8) (n : Nat) :
  ReadOnly fs (rdSectors fs lba buf n).2.2 := by
  simp only [rdSectors, vblkRead]
  split_ifs
  · exact ReadOnly.refl fs
  · exact ReadOnly.counted fs
  · exact ReadOnly.counted fs

lemma dirLoad_readOnly (fs : Fs) : ReadOnly fs (dirLoad fs).2 := by
  rw [dirLoad_eq]
  split_ifs <;> exact ReadOnly.counted fs

end Aeos.Afs
