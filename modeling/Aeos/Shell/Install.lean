/-
# Installing the running kernel

`cmd_install` of `kernel/shell.c` writes the kernel image to `kernel.bin` and compares a
checksum of the image with one of what it reads back.
-/

import Aeos.Afs.ReadBuffer

namespace Aeos.Shell

open Afs Lib List BitVec

inductive Report
  | refused
  | failed
  | unverified
  | passed
  | mismatch
  deriving DecidableEq

def addByte (sum : BitVec 32) (b : UInt8) : BitVec 32 := (sum <<< 1) ^^^ b.toBitVec.setWidth 32

def simpleChecksum (data : List UInt8) : BitVec 32 := data.foldl addByte 0

def kernelBin : List UInt8 := ascii "kernel.bin"

def verify (image : List UInt8) (read : ReadOutcome) : Report :=
  if read.result < 0 then .unverified
  else if simpleChecksum image = simpleChecksum (read.stored.take read.result.toNat) then .passed
  else .mismatch

/-- `cmd_install`, with what becomes of the volume between the write and the read. -/
def cmdInstall (fs : Fs) (image : List UInt8) (verifyBuf : Nat) (disk : Fs → Fs) : Report :=
  if 1024 * 1024 < image.length then .refused
  else
    match afsWrite fs (some kernelBin) (some image) with
    | (none, _) => .failed
    | (some _, fs) => verify image (afsReadInto (disk fs) (some kernelBin) verifyBuf 4096)

/-- The report about a file with these contents that can be read. -/
def reported (image stored : List UInt8) : Report :=
  if 1024 * 1024 < image.length then .refused
  else if simpleChecksum image = simpleChecksum (stored.take 4096) then .passed
  else .mismatch

variable {image : List UInt8}

lemma cmdInstall_eq {fs fs' : Fs} {verifyBuf n : Nat} {disk : Fs → Fs}
  {i : Fin afsMaxFiles} (hwrite : afsWrite fs (some kernelBin) (some image) = (some n, fs'))
  (hfound : findName (disk fs').dir kernelBin = some i)
  (hread : (afsRead (disk fs') (some kernelBin) verifyBuf 4096).1 ≠ none) :
  cmdInstall fs image verifyBuf disk = reported image
    ((disk fs').fileBytes ((disk fs').dir i).startLba ((disk fs').dir i).size) := by
  rw [cmdInstall, hwrite, reported]
  dsimp only
  generalize disk fs' = fs at *
  have hthrough : fs.GetsThrough i verifyBuf 4096 :=
    not_not.mp fun hstopped => hread (afsReadInto_stopped hfound hstopped).1
  obtain ⟨len, hlen, hresult, hstored⟩ := afsReadInto_through hfound hthrough
  rw [(min_chunksOf_eq_iff _ _).mpr (.inr rfl)] at hlen
  have hint := (int32_natCast_eq_iff len).mpr (by omega)
  have htake : fs.fileBytes (fs.dir i).startLba len =
      (fs.fileBytes (fs.dir i).startLba (fs.dir i).size).take 4096 := by
    rw [Fs.fileBytes, Fs.fileBytes, ← map_take, take_range, hlen, Nat.min_comm]
  have hwhole : (fs.fileBytes (fs.dir i).startLba len).take len = _ :=
    take_of_length_le (Fs.length_fileBytes fs _ len).le
  have hpos : ¬ (len : Int) < 0 := by omega
  rw [verify, hresult, hstored, hint, if_neg hpos, Int.toNat_natCast, hwhole, htake]

lemma foldl_addByte (data : List UInt8) (sum : BitVec 32) :
  data.foldl addByte sum = (sum <<< data.length) ^^^ simpleChecksum data := by
  induction data generalizing sum with
  | nil => simp [simpleChecksum]
  | cons b data ih =>
    rw [simpleChecksum, foldl_cons, foldl_cons, ih, ih (addByte 0 b), addByte, addByte,
      shiftLeft_xor_distrib, shiftLeft_xor_distrib, ← shiftLeft_add,
      length_cons, Nat.add_comm data.length 1]
    simp [xor_assoc]

lemma simpleChecksum_eq_iff (before after : List UInt8) (x y : UInt8) :
  simpleChecksum (before ++ x :: after) = simpleChecksum (before ++ y :: after) ↔
    x.toBitVec.setWidth 32 <<< after.length = y.toBitVec.setWidth 32 <<< after.length := by
  have hsum : ∀ b, simpleChecksum (before ++ b :: after) =
      b.toBitVec.setWidth 32 <<< after.length ^^^
        (simpleChecksum before <<< 1 <<< after.length ^^^ simpleChecksum after) := by
    intro b
    rw [simpleChecksum, foldl_append, foldl_cons, foldl_addByte, addByte,
      shiftLeft_xor_distrib, ← simpleChecksum, ← xor_assoc,
      BitVec.xor_comm (b.toBitVec.setWidth 32 <<< after.length)]
  rw [hsum, hsum, xor_left_inj]

lemma shiftLeft_injective {x y : UInt8} {n : Nat} (hn : n ≤ 24)
  (heq : x.toBitVec.setWidth 32 <<< n = y.toBitVec.setWidth 32 <<< n) : x = y := by
  have hpow : 2 ^ n ≤ 2 ^ 24 := Nat.pow_le_pow_right (by decide) hn
  have hshift : ∀ b : UInt8, (b.toBitVec.setWidth 32 <<< n).toNat = b.toNat * 2 ^ n := by
    intro b
    have hb := b.toNat_lt
    have hbound : b.toNat * 2 ^ n < 2 ^ 32 := (Nat.mul_le_mul_left _ hpow).trans_lt (by omega)
    have hbyte : (b.toBitVec.setWidth 32).toNat = b.toNat := by
      rw [toNat_setWidth, UInt8.toNat_toBitVec, Nat.mod_eq_of_lt (by omega)]
    rw [toNat_shiftLeft, hbyte, Nat.shiftLeft_eq, Nat.mod_eq_of_lt hbound]
  have hmul := congrArg BitVec.toNat heq
  rw [hshift, hshift] at hmul
  exact UInt8.toNat_inj.mp (Nat.mul_right_cancel (Nat.two_pow_pos n) hmul)

lemma shiftLeft_highest (x : UInt8) :
  x.toBitVec.setWidth 32 <<< 25 = (x ^^^ 0x80).toBitVec.setWidth 32 <<< 25 := by
  have hlost : (0x80 : UInt8).toBitVec.setWidth 32 <<< 25 = 0#32 := by decide
  rw [UInt8.toBitVec_xor, setWidth_xor, shiftLeft_xor_distrib, hlost,
    xor_zero]

def DifferInOne (image stored : List UInt8) : Prop :=
  ∃ before x y after, image = before ++ x :: after ∧ stored = before ++ y :: after ∧ x ≠ y

/-- What is stored right passes, and one wrong byte is noticed. -/
def Truthful (image : List UInt8) : Prop :=
  ∀ stored, (stored = image → reported image stored = .passed) ∧
    (DifferInOne image stored → reported image stored = .mismatch)

lemma truthful_of_short (hshort : image.length ≤ 25) : Truthful image := by
  intro stored
  constructor
  · rintro rfl
    rw [reported, if_neg (by omega), take_of_length_le (by omega), if_pos rfl]
  rintro ⟨before, x, y, after, rfl, rfl, hne⟩
  rw [length_append, length_cons] at hshort
  have hall : (before ++ y :: after).length ≤ 4096 := by
    rw [length_append, length_cons]
    omega
  rw [reported, if_neg (by simp; omega), take_of_length_le hall, if_neg]
  rw [simpleChecksum_eq_iff]
  exact fun heq => hne (shiftLeft_injective (by omega) heq)

lemma exists_split {k : Nat} (hk : k < image.length) :
  ∃ before x after, image = before ++ x :: after ∧ after.length = k := by
  have hlt : image.length - 1 - k < image.length := by omega
  refine ⟨_, _, _, (take_append_drop (image.length - 1 - k) image).symm.trans
    (congrArg _ (drop_eq_getElem_cons hlt)), ?_⟩
  rw [length_drop]
  omega

lemma not_truthful_of_long (hlong : 25 < image.length) : ¬ Truthful image := by
  intro h
  have hpassed := (h image).1 rfl
  -- A file that differs in one byte and of which the report is the same.
  obtain ⟨stored, hdiffer, hsame⟩ : ∃ stored, DifferInOne image stored ∧
      reported image stored = reported image image := by
    have hflip : ∀ x : UInt8, x ≠ x ^^^ 0x80 := fun x heq => by
      have hzero := congrArg (x ^^^ ·) heq
      rw [← UInt8.xor_assoc, UInt8.xor_self] at hzero
      exact absurd hzero (by decide)
    by_cases hfits : image.length ≤ 4096
    · obtain ⟨before, x, after, rfl, hafter⟩ := exists_split hlong
      refine ⟨_, ⟨before, x, x ^^^ 0x80, after, rfl, rfl, hflip x⟩, ?_⟩
      have hsum := (simpleChecksum_eq_iff before after x (x ^^^ 0x80)).mpr
        (hafter ▸ shiftLeft_highest x)
      rw [reported, reported, take_of_length_le hfits, hsum, take_of_length_le]
      simpa using hfits
    obtain ⟨before, x, after, rfl, hafter⟩ := exists_split (Nat.zero_lt_of_lt hlong)
    obtain rfl := length_eq_zero_iff.mp hafter
    refine ⟨_, ⟨before, x, x ^^^ 0x80, [], rfl, rfl, hflip x⟩, ?_⟩
    have hread : 4096 ≤ before.length := by
      simp at hfits
      omega
    rw [reported, reported, take_append_of_le_length hread,
      take_append_of_le_length hread]
  rw [(h stored).2 hdiffer, hpassed] at hsame
  cases hsame

/-- `cmd_install` reports on the contents of `kernel.bin` when these can be read, and the
report can be trusted exactly for images of up to 25 bytes. -/
theorem install_check_truthful_iff (image : List UInt8) :
  (∀ fs fs' verifyBuf disk n i, afsWrite fs (some kernelBin) (some image) = (some n, fs') →
    findName (disk fs').dir kernelBin = some i →
    (afsRead (disk fs') (some kernelBin) verifyBuf 4096).1 ≠ none →
    cmdInstall fs image verifyBuf disk = reported image
      ((disk fs').fileBytes ((disk fs').dir i).startLba ((disk fs').dir i).size)) ∧
  (Truthful image ↔ image.length ≤ 25) := by
  refine ⟨fun fs fs' verifyBuf disk n i => cmdInstall_eq, ?_, truthful_of_short⟩
  exact fun h => not_lt.mp fun hlong => not_truthful_of_long hlong h

/-- An image of 26 bytes passes with its first byte changed, and one of 4097 bytes is
reported as corrupted when it is stored right. -/
theorem install_report_wrong :
  reported (List.replicate 26 0) (0x80 :: List.replicate 25 0) = .passed ∧
    reported (List.replicate 4096 0 ++ [1]) (List.replicate 4096 0 ++ [1]) = .mismatch := by
  decide +kernel

end Aeos.Shell
