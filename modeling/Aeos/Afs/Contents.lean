/-
# The bytes of a file

What the loops of `afs_write` and `afs_read` do to the data of the volume when no
address wraps: the written sectors hold the data, everything else is as before, and a
read of them gives the data back.
-/

import Aeos.Afs.Calls

namespace Aeos.Afs

open Lib List

def bytesAt (data : Nat → UInt8) (addr len : Nat) : List UInt8 :=
  (List.range len).map fun j => data (addr + j)

@[simp]
lemma length_bytesAt (data : Nat → UInt8) (addr len : Nat) :
  (bytesAt data addr len).length = len := by
  simp [bytesAt]

lemma bytesAt_add (data : Nat → UInt8) (addr m n : Nat) :
  bytesAt data addr (m + n) = bytesAt data addr m ++ bytesAt data (addr + m) n := by
  simp only [bytesAt, range_add, map_append, map_map, Function.comp_def,
    Nat.add_assoc]

lemma bytesAt_congr {data data' : Nat → UInt8} {addr len : Nat}
  (h : ∀ j < len, data' (addr + j) = data (addr + j)) :
  bytesAt data' addr len = bytesAt data addr len :=
  map_congr_left fun j hj => h j (mem_range.mp hj)

lemma bytesAt_eq_of_getD {data : Nat → UInt8} {addr : Nat} {bytes : List UInt8}
  (h : ∀ j < bytes.length, data (addr + j) = bytes.getD j 0) :
  bytesAt data addr bytes.length = bytes := by
  refine ext_getElem (by simp) fun j hj hj' => ?_
  simp only [bytesAt, getElem_map, getElem_range]
  rw [h j hj']
  simp [hj']

def Fs.addr (fs : Fs) (lba : Nat) : Nat := (fs.ram.base + lba) * sectSize

section
variable {fs : Fs} {lba : Nat} {data : List UInt8}

section
variable (hwrap : fs.ram.base + lba + sectorsFor data.length < 2 ^ 32)
include hwrap

lemma writeChunk_spec {k : Nat} (hk : k * chunkSize < data.length) :
  (∀ a, a < fs.addr lba + k * chunkSize ∨ fs.addr (lba + sectorsFor data.length) ≤ a →
    (writeChunk fs lba data k).2.dev.data a = fs.dev.data a) ∧
  ((writeChunk fs lba data k).1 = true → ∀ j < chunkLen data.length k,
    (writeChunk fs lba data k).2.dev.data (fs.addr lba + (k * chunkSize + j)) =
      data.getD (k * chunkSize + j) 0) := by
  obtain ⟨hsec, _, hle⟩ := chunk_sectors hk
  obtain ⟨slot, buf, hbuf, hcall⟩ := writeChunk_eq fs lba hk
  have hphys : u32 ((fs.setBuf slot buf).ram.base + u32 (lba + 8 * k)) * sectSize =
      fs.addr lba + k * chunkSize := by
    have hsame : (fs.setBuf slot buf).ram.base = fs.ram.base := rfl
    rw [hsame, u32_of_lt (n := lba + 8 * k) (by omega), u32_of_lt (by omega), Fs.addr]
    simp only [sectSize, chunkSize]
    omega
  rw [hcall]
  split_ifs
  · exact ⟨fun _ _ => rfl, fun hok => by cases hok⟩
  refine ⟨fun a ha => ?_, fun _ j hj => ?_⟩
  · refine overwrite_outside ?_
    have hstop : fs.addr lba + k * chunkSize + sectorsFor (chunkLen data.length k) * sectSize ≤
        fs.addr (lba + sectorsFor data.length) := by
      simp only [Fs.addr, sectSize, chunkSize]
      omega
    omega
  have hin : j < sectorsFor (chunkLen data.length k) * sectSize := by
    simp only [sectorsFor, sectSize]
    omega
  rw [← hbuf j hj, ← Nat.add_assoc, Fs.stored_data, hphys]
  exact overwrite_inside hin

lemma writeChunks_spec (hlba : 2 ≤ lba) : ∀ n ≤ chunksOf data.length,
    (∀ a, a < fs.addr lba ∨ fs.addr (lba + sectorsFor data.length) ≤ a →
      (writeChunks fs lba data n).2.dev.data a = fs.dev.data a) ∧
    ((writeChunks fs lba data n).1 = true → ∀ j < data.length, j < n * chunkSize →
      (writeChunks fs lba data n).2.dev.data (fs.addr lba + j) = data.getD j 0) := by
  intro n
  induction n with
  | zero => exact fun _ => ⟨fun _ _ => rfl, fun _ j _ hj => absurd hj (by simp)⟩
  | succ k ih =>
    intro hk
    obtain ⟨hframe, hdone⟩ := ih (Nat.le_of_succ_le hk)
    have hmeta := writeChunks_meta fs data hlba (by omega) k (Nat.le_of_succ_le hk)
    rw [writeChunks]
    rcases hloop : writeChunks fs lba data k with ⟨ok, fs₁⟩
    rw [hloop] at hframe hdone hmeta
    cases ok with
    | false => exact ⟨hframe, fun hok => by cases hok⟩
    | true =>
      have hbase := hmeta.base
      have haddr : ∀ x, fs₁.addr x = fs.addr x := fun x => by rw [Fs.addr, Fs.addr, hbase]
      have hk' := lt_chunksOf_iff.mp (Nat.lt_of_succ_le hk)
      rw [← hbase] at hwrap
      obtain ⟨hkeep, hnew⟩ := writeChunk_spec hwrap hk'
      simp only [haddr] at hkeep hnew
      refine ⟨fun a ha => ?_, fun hok j hj hjk => ?_⟩
      · rw [hkeep a (ha.imp_left fun h => h.trans_le (Nat.le_add_right _ _))]
        exact hframe a ha
      by_cases hold : j < k * chunkSize
      · rw [hkeep _ (.inl (Nat.add_lt_add_left hold _))]
        exact hdone rfl j hj hold
      have hsplit : j = k * chunkSize + (j - k * chunkSize) := by omega
      rw [hsplit]
      refine hnew hok _ ?_
      simp only [chunkLen]
      rw [Nat.succ_mul] at hjk
      omega

end

lemma writeChunks_ok (hfault : ∀ n, fs.dev.fault n = false) (hlba : 2 ≤ lba)
  (hrange : fs.ram.base + lba + sectorsFor data.length ≤ fs.dev.sectors)
  (hwrap : fs.ram.base + lba + sectorsFor data.length < 2 ^ 32) :
  ∀ n ≤ chunksOf data.length, (writeChunks fs lba data n).1 = true := by
  intro n
  induction n with
  | zero => exact fun _ => rfl
  | succ k ih =>
    intro hk
    have hprev := ih (Nat.le_of_succ_le hk)
    have hmeta := writeChunks_meta fs data hlba (by omega) k (Nat.le_of_succ_le hk)
    rw [writeChunks]
    rcases hloop : writeChunks fs lba data k with ⟨ok, fs₁⟩
    rw [hloop] at hprev hmeta
    obtain rfl : ok = true := hprev
    have hk' := lt_chunksOf_iff.mp (Nat.lt_of_succ_le hk)
    obtain ⟨_, _, hle⟩ := chunk_sectors hk'
    obtain ⟨slot, buf, _, hcall⟩ := writeChunk_eq fs₁ lba hk'
    have hin : (fs₁.setBuf slot buf).refuses (u32 (lba + 8 * k))
        (sectorsFor (chunkLen data.length k)) = false := by
      have hbase : (fs₁.setBuf slot buf).ram.base = fs.ram.base := hmeta.base
      have hsectors : (fs₁.setBuf slot buf).dev.sectors = fs.dev.sectors := hmeta.sectors
      have hnone : (fs₁.setBuf slot buf).dev.fault = fs.dev.fault := hmeta.fault
      rw [Fs.refuses_eq_fault, hnone, hfault]
      rw [hbase, hsectors, u32_of_lt (n := lba + 8 * k) (by omega), u32_of_lt (by omega)]
      omega
    dsimp only
    rw [hcall, hin]
    rfl

lemma writeChunks_range (hwrap : fs.ram.base + lba + sectorsFor data.length < 2 ^ 32)
  (hlba : 2 ≤ lba) (hdata : data.length ≠ 0)
  (hok : (writeChunks fs lba data (chunksOf data.length)).1 = true) :
  fs.ram.base + lba + sectorsFor data.length ≤ fs.dev.sectors := by
  obtain ⟨k, hk⟩ : ∃ k, chunksOf data.length = k + 1 := by
    refine Nat.exists_eq_succ_of_ne_zero ?_
    simp only [chunksOf, chunkSize]
    omega
  have hk' : k * chunkSize < data.length := lt_chunksOf_iff.mp (hk ▸ Nat.lt_succ_self k)
  have hmeta := writeChunks_meta fs data hlba (by omega) k (by omega)
  rw [hk, writeChunks] at hok
  rcases hloop : writeChunks fs lba data k with ⟨ok, fs₁⟩
  rw [hloop] at hok hmeta
  cases ok with
  | false => cases hok
  | true =>
    -- The last request covers the last sector of the file.
    obtain ⟨slot, buf, _, hcall⟩ := writeChunk_eq fs₁ lba hk'
    have hlast := chunk_sectors_last hk
    have hbase : (fs₁.setBuf slot buf).ram.base = fs.ram.base := hmeta.base
    have hsectors : (fs₁.setBuf slot buf).dev.sectors = fs.dev.sectors := hmeta.sectors
    dsimp only at hok
    rw [hcall] at hok
    split_ifs at hok with hrefused
    have hin := Fs.range_of_not_refused (Bool.not_eq_true _ ▸ hrefused)
    rw [hbase, hsectors, u32_of_lt (n := lba + 8 * k) (by omega), u32_of_lt (by omega)] at hin
    omega

end

section
variable {fs : Fs} {lba size : Nat}

lemma readChunk_eq (fs : Fs) (lba : Nat) {k : Nat} (hk : k * chunkSize < size) : ∃ fs',
    (ReadOnly fs fs' ∧ fs'.dev.reqs = fs.dev.reqs + 1) ∧ readChunk fs lba size k =
    if fs.refuses (u32 (lba + 8 * k)) (sectorsFor (chunkLen size k)) then (none, fs.counted) else
      (some (bytesAt fs.dev.data (u32 (fs.ram.base + u32 (lba + 8 * k)) * sectSize)
        (chunkLen size k)), fs') := by
  obtain ⟨hsec, hoff, _⟩ := chunk_sectors hk
  have hbytes : ∀ buf, (List.range (chunkLen size k)).map
      (overwrite buf 0 (sectorsFor (chunkLen size k) * sectSize) (fs.sector (u32 (lba + 8 * k)))) =
      bytesAt fs.dev.data (u32 (fs.ram.base + u32 (lba + 8 * k)) * sectSize) (chunkLen size k) := by
    intro buf
    refine map_congr_left fun j hj => overwrite_zero ?_
    have hj := mem_range.mp hj
    simp only [sectorsFor, sectSize]
    omega
  have hread := rdSectors_eq fs (u32 (lba + 8 * k)) (fs.ram.iobuf ((k + 1) % iobufSlots)) hsec
  refine ⟨fs.counted.setBuf ((k + 1) % iobufSlots)
    (overwrite (fs.ram.iobuf ((k + 1) % iobufSlots)) 0 (sectorsFor (chunkLen size k) * sectSize)
      (fs.sector (u32 (lba + 8 * k)))), ⟨⟨rfl, rfl, rfl, rfl⟩, rfl⟩, ?_⟩
  simp only [readChunk, hoff]
  rw [← chunkLen, ← sectorsFor, hread]
  cases fs.refuses (u32 (lba + 8 * k)) (sectorsFor (chunkLen size k)) with
  | true => rfl
  | false =>
    simp only [Bool.false_eq_true, if_false, hbytes]

lemma readChunks_spec (hfault : ∀ n, fs.dev.fault n = false)
  (hrange : fs.ram.base + lba + sectorsFor size ≤ fs.dev.sectors)
  (hwrap : fs.ram.base + lba + sectorsFor size < 2 ^ 32) :
  ∀ n ≤ chunksOf size, ∃ fs', ReadOnly fs fs' ∧ readChunks fs lba size n =
      (some (bytesAt fs.dev.data (fs.addr lba) (min size (n * chunkSize))), fs') := by
  intro n
  induction n with
  | zero => exact fun _ => ⟨fs, ReadOnly.refl fs, by simp [readChunks, bytesAt]⟩
  | succ k ih =>
    intro hk
    obtain ⟨fs₁, hkept, hloop⟩ := ih (Nat.le_of_succ_le hk)
    have hk' := lt_chunksOf_iff.mp (Nat.lt_of_succ_le hk)
    obtain ⟨_, _, hle⟩ := chunk_sectors hk'
    obtain ⟨fs₂, ⟨hkept₂, _⟩, hchunk⟩ := readChunk_eq fs₁ lba hk'
    have hbase : fs₁.ram.base = fs.ram.base := by rw [hkept.ram]
    have hphys : u32 (fs₁.ram.base + u32 (lba + 8 * k)) = fs.ram.base + (lba + 8 * k) := by
      rw [hbase, u32_of_lt (n := lba + 8 * k) (by omega), u32_of_lt (by omega)]
    have hok : fs₁.refuses (u32 (lba + 8 * k)) (sectorsFor (chunkLen size k)) = false := by
      rw [Fs.refuses_eq_fault, hkept.fault, hfault]
      rw [hphys, hkept.sectors]
      omega
    have haddr : (fs.ram.base + (lba + 8 * k)) * sectSize = fs.addr lba + k * chunkSize := by
      simp only [Fs.addr, sectSize, chunkSize]
      omega
    have hlen : min size ((k + 1) * chunkSize) = k * chunkSize + chunkLen size k := by
      rw [chunkLen, Nat.succ_mul]
      omega
    have hold := min_eq_right hk'.le
    rw [hok, hphys, hkept.data, haddr] at hchunk
    refine ⟨fs₂, hkept.trans hkept₂, ?_⟩
    rw [readChunks, hloop]
    dsimp only
    rw [hchunk, hold, hlen, bytesAt_add]
    rfl

end
end Aeos.Afs
