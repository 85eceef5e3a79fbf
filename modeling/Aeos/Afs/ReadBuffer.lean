/-
# The buffer of a read

`afs_read` copies a file in chunks of 4096 bytes and compares what it has copied with
`max` between two chunks only.
-/

import Aeos.Afs.Contents
import Aeos.Afs.Faults
import Aeos.Lib.FixedPoint

namespace Aeos.Afs

open Lib List

/-- The first `n` iterations of the loop of `afs_read`: whether no request has failed, and the
bytes copied to `dst` so far. -/
def copyChunks (fs : Fs) (lba size : Nat) : Nat → Bool × List UInt8 × Fs
  | 0 => (true, [], fs)
  | n + 1 =>
    match copyChunks fs lba size n with
    | (false, out, fs) => (false, out, fs)
    | (true, out, fs) =>
      match readChunk fs lba size n with
      | (none, fs) => (false, out, fs)
      | (some bytes, fs) => (true, out ++ bytes, fs)

structure ReadOutcome where
  /-- The `int` it returns. -/
  result : Int
  /-- The bytes it copies to `dst[0]`, `dst[1]` and so on. -/
  stored : List UInt8
  fs : Fs

def afsReadInto (fs : Fs) (name : Option (List UInt8)) (buf max : Nat) : ReadOutcome :=
  match name with
  | none => ⟨-1, [], fs⟩
  | some name =>
    if !fs.ram.mounted || buf = 0 || max = 0 then ⟨-1, [], fs⟩
    else
      match dirLoad fs with
      | (none, fs) => ⟨-1, [], fs⟩
      | (some d, fs) =>
        match findSlot d name false with
        | none => ⟨-1, [], fs⟩
        | some (i, _) =>
          match copyChunks fs (d i).startLba (d i).size
              (chunksOf (min max (d i).size)) with
          | (false, out, fs) => ⟨-1, out, fs⟩
          | (true, out, fs) => ⟨int32 out.length, out, fs⟩

lemma readChunks_eq_copyChunks (fs : Fs) (lba size n : Nat) : readChunks fs lba size n =
    (if (copyChunks fs lba size n).1 then some (copyChunks fs lba size n).2.1 else none,
      (copyChunks fs lba size n).2.2) := by
  induction n with
  | zero => rfl
  | succ n ih =>
    rw [readChunks, copyChunks, ih]
    rcases copyChunks fs lba size n with ⟨ok, out, fs₁⟩
    cases ok with
    | false => rfl
    | true =>
      simp only [if_true]
      generalize readChunk fs₁ lba size n = chunk
      obtain ⟨_ | bytes, fs₂⟩ := chunk
      · rfl
      · rfl

/-- Byte `j` of the file that starts at sector `lba`, where the loops of `afs_write` and
`afs_read` look for it. -/
def Fs.fileByte (fs : Fs) (lba j : Nat) : UInt8 :=
  fs.dev.data (u32 (fs.ram.base + u32 (lba + 8 * (j / chunkSize))) * sectSize + j % chunkSize)

def Fs.fileBytes (fs : Fs) (lba len : Nat) : List UInt8 := (List.range len).map (fs.fileByte lba)

section
variable {fs : Fs} {lba size : Nat}

@[simp]
lemma Fs.length_fileBytes (fs : Fs) (lba len : Nat) : (fs.fileBytes lba len).length = len := by
  simp [Fs.fileBytes]

lemma ReadOnly.fileBytes {fs' : Fs} (h : ReadOnly fs fs') (lba len : Nat) :
  fs'.fileBytes lba len = fs.fileBytes lba len := by
  have hbase : fs'.ram.base = fs.ram.base := by rw [h.ram]
  refine map_congr_left fun j _ => ?_
  rw [Fs.fileByte, Fs.fileByte, h.data, hbase]

lemma Fs.fileBytes_chunk (fs : Fs) (lba : Nat) {k : Nat} (hk : k * chunkSize < size) :
  fs.fileBytes lba (min size ((k + 1) * chunkSize)) = fs.fileBytes lba (min size (k * chunkSize)) ++
      bytesAt fs.dev.data (u32 (fs.ram.base + u32 (lba + 8 * k)) * sectSize) (chunkLen size k) := by
  have hlen : min size ((k + 1) * chunkSize) = k * chunkSize + chunkLen size k := by
    rw [chunkLen, Nat.succ_mul]
    omega
  rw [hlen, min_eq_right hk.le, Fs.fileBytes, range_add, map_append, map_map]
  refine congrArg (_ ++ ·) (map_congr_left fun j hj => ?_)
  have hj : j < chunkSize := (mem_range.mp hj).trans_le (min_le_right _ _)
  have hdiv : (k * chunkSize + j) / chunkSize = k := by
    simp only [chunkSize] at hj ⊢
    omega
  have hmod : (k * chunkSize + j) % chunkSize = j := by
    simp only [chunkSize] at hj ⊢
    omega
  simp only [Function.comp_apply, Fs.fileByte, hdiv, hmod]

/-- The request that is made after `n` others from here is served. -/
def Fs.Serves (fs : Fs) (n lba count : Nat) : Prop :=
  fs.dev.fault (fs.dev.reqs + n) = false ∧ u32 (fs.ram.base + lba) + count ≤ fs.dev.sectors

lemma Fs.refuses_eq_false_iff (fs : Fs) (lba count : Nat) :
    fs.refuses lba count = false ↔ fs.Serves 0 lba count := by
  simp [Fs.refuses, Device.refuses, Fs.Serves]

/-- The requests of the first `n` iterations are served, the first of them after `past` others. -/
def Fs.ServesChunks (fs : Fs) (past lba size n : Nat) : Prop :=
  ∀ k < n, fs.Serves (past + k) (u32 (lba + 8 * k)) (sectorsFor (chunkLen size k))

lemma copyChunks_served {n : Nat} (hn : n ≤ chunksOf size)
    (hserved : fs.ServesChunks 0 lba size n) :
    ∃ fs', (ReadOnly fs fs' ∧ fs'.dev.reqs = fs.dev.reqs + n) ∧ copyChunks fs lba size n =
      (true, fs.fileBytes lba (min size (n * chunkSize)), fs') := by
  induction n with
  | zero => exact ⟨fs, ⟨ReadOnly.refl fs, rfl⟩, by simp [copyChunks, Fs.fileBytes]⟩
  | succ n ih =>
    obtain ⟨fs₁, ⟨hkept, hreqs⟩, hloop⟩ := ih (Nat.le_of_succ_le hn) fun k hk =>
      hserved k (Nat.lt_succ_of_lt hk)
    have hk := lt_chunksOf_iff.mp (Nat.lt_of_succ_le hn)
    obtain ⟨fs₂, ⟨hkept₂, hreqs₂⟩, hchunk⟩ := readChunk_eq fs₁ lba hk
    have hbase : fs₁.ram.base = fs.ram.base := by rw [hkept.ram]
    have hlast := hserved n (Nat.lt_succ_self n)
    have hok : fs₁.refuses (u32 (lba + 8 * n)) (sectorsFor (chunkLen size n)) = false := by
      rw [Fs.refuses_eq_false_iff]
      simpa only [Fs.Serves, hkept.fault, hkept.sectors, hreqs, hbase, Nat.zero_add,
        Nat.add_zero] using hlast
    rw [copyChunks, hloop]
    simp only [hchunk, hok, Bool.false_eq_true, if_false]
    refine ⟨fs₂, ⟨hkept.trans hkept₂, by omega⟩, ?_⟩
    rw [← hkept.fileBytes, ← hkept.fileBytes, Fs.fileBytes_chunk fs₁ lba hk]

lemma copyChunks_refused {n : Nat} (hn : n ≤ chunksOf size)
    (hrefused : ¬ fs.ServesChunks 0 lba size n) : (copyChunks fs lba size n).1 = false := by
  induction n with
  | zero => exact absurd (fun k hk => absurd hk (Nat.not_lt_zero k)) hrefused
  | succ n ih =>
    by_cases hprior : fs.ServesChunks 0 lba size n
    · -- The last request is the first one that is refused.
      obtain ⟨fs₁, ⟨hkept, hreqs⟩, hloop⟩ := copyChunks_served (Nat.le_of_succ_le hn) hprior
      obtain ⟨fs₂, _, hchunk⟩ := readChunk_eq fs₁ lba (lt_chunksOf_iff.mp (Nat.lt_of_succ_le hn))
      have hbase : fs₁.ram.base = fs.ram.base := by rw [hkept.ram]
      have hlast : fs₁.refuses (u32 (lba + 8 * n)) (sectorsFor (chunkLen size n)) = true := by
        rw [← Bool.not_eq_false, Fs.refuses_eq_false_iff]
        intro hserved
        refine hrefused fun k hk => ?_
        rcases Nat.lt_succ_iff_lt_or_eq.mp hk with hlt | rfl
        · exact hprior k hlt
        · simpa only [Fs.Serves, hkept.fault, hkept.sectors, hreqs, hbase, Nat.zero_add,
            Nat.add_zero] using hserved
      rw [copyChunks, hloop]
      simp only [hchunk, hlast, if_true]
    · have hfalse := ih (Nat.le_of_succ_le hn) hprior
      rw [copyChunks]
      rcases hloop : copyChunks fs lba size n with ⟨ok, out, fs₁⟩
      rw [hloop] at hfalse
      obtain rfl : ok = false := hfalse
      rfl

end

section
variable {fs : Fs} {name : List UInt8} {i : Fin afsMaxFiles} {buf max : Nat}

/-- The call gets through: the volume is mounted, `buf` and `max` are given, and the requests for
the directory and for the chunks that start before `max` are served. -/
structure Fs.GetsThrough (fs : Fs) (i : Fin afsMaxFiles) (buf max : Nat) : Prop where
  mounted : fs.ram.mounted = true
  buffer : buf ≠ 0
  room : max ≠ 0
  directory : fs.Serves 0 afsDirLba 1
  chunks : fs.ServesChunks 1 (fs.dir i).startLba (fs.dir i).size
    (chunksOf (min max (fs.dir i).size))

lemma chunksOf_min_le (size max : Nat) : chunksOf (min max size) ≤ chunksOf size :=
  Nat.div_le_div_right (Nat.add_le_add_right (min_le_right _ _) _)

lemma servesChunks_counted (fs : Fs) (past lba size n : Nat) :
    fs.counted.ServesChunks past lba size n ↔ fs.ServesChunks (past + 1) lba size n := by
  refine forall₂_congr fun k _ => ?_
  have hnumber : fs.dev.reqs + 1 + (past + k) = fs.dev.reqs + (past + 1 + k) := by omega
  simp only [Fs.Serves, ← hnumber]
  rfl

/-- A call that gets through stores all chunks that start before `max`. -/
lemma afsReadInto_through (hfound : findName fs.dir name = some i)
    (hthrough : fs.GetsThrough i buf max) : ∃ len,
    len = min (fs.dir i).size (chunksOf (min max (fs.dir i).size) * chunkSize) ∧
      (afsReadInto fs (some name) buf max).result = int32 len ∧
      (afsReadInto fs (some name) buf max).stored = fs.fileBytes (fs.dir i).startLba len := by
  obtain ⟨hmounted, hbuf, hmax, hdir, hchunks⟩ := hthrough
  rw [← Fs.refuses_eq_false_iff] at hdir
  obtain ⟨fs₁, _, hloop⟩ := copyChunks_served (chunksOf_min_le (fs.dir i).size max)
    ((servesChunks_counted fs 0 _ _ _).mpr hchunks)
  refine ⟨_, rfl, ?_⟩
  simp [afsReadInto, hmounted, hbuf, hmax, dirLoad_eq, hdir, findSlot_false, hfound, hloop,
    (ReadOnly.counted fs).fileBytes]

lemma afsReadInto_stopped (hfound : findName fs.dir name = some i)
    (hstopped : ¬ fs.GetsThrough i buf max) : (afsRead fs (some name) buf max).1 = none ∧
    (afsReadInto fs (some name) buf max).result = -1 := by
  simp only [afsRead, afsReadInto, dirLoad_eq, findSlot_false]
  split_ifs with hargs hload
  · exact ⟨rfl, rfl⟩
  · exact ⟨rfl, rfl⟩
  simp only [Bool.or_eq_true, Bool.not_eq_eq_eq_not, Bool.not_true, decide_eq_true_eq,
    not_or, Bool.not_eq_false] at hargs
  have hrefused : ¬ fs.counted.ServesChunks 0 (fs.dir i).startLba (fs.dir i).size
      (chunksOf (min max (fs.dir i).size)) := by
    intro hchunks
    rw [servesChunks_counted] at hchunks
    rw [Bool.not_eq_true, Fs.refuses_eq_false_iff] at hload
    exact hstopped ⟨hargs.1.1, hargs.1.2, hargs.2, hload, hchunks⟩
  have hfalse := copyChunks_refused (chunksOf_min_le (fs.dir i).size max) hrefused
  simp only [hfound, Option.map_some, readChunks_eq_copyChunks]
  rcases hloop : copyChunks fs.counted (fs.dir i).startLba (fs.dir i).size
    (chunksOf (min max (fs.dir i).size)) with ⟨ok, out, fs₁⟩
  rw [hloop] at hfalse
  obtain rfl : ok = false := hfalse
  exact ⟨rfl, rfl⟩

/-- The read returns the length of the file or `max`, whichever is less, and stores so many bytes,
the first ones of the file. -/
structure RespectsBuffer (fs : Fs) (name : List UInt8) (i : Fin afsMaxFiles) (buf max : Nat) :
    Prop where
  returned : (afsReadInto fs (some name) buf max).result = (min (fs.dir i).size max : Nat)
  stored : (afsReadInto fs (some name) buf max).stored =
    fs.fileBytes (fs.dir i).startLba (min (fs.dir i).size max)

lemma min_chunksOf_eq_iff (size max : Nat) :
    min size (chunksOf (min max size) * chunkSize) = min size max ↔
      size ≤ max ∨ max % chunkSize = 0 := by
  simp only [chunksOf, chunkSize]
  omega

end

/-! ### A file longer than the buffer of `cat` -/

def longDir : Dir :=
  Function.update (fun _ => Dirent.zero) firstEntry (((Dirent.fresh [97]).setStart 2).setSize 3000)

def longFs : Fs := (afsMount (sampleFs longDir fun _ => false)).2

lemma longFs_found : findName longFs.dir [97] = some firstEntry := by
  decide

lemma longFs_size : (longFs.dir firstEntry).size = 3000 := by
  decide

/-- In a directory whose names are ended, the read of a file respects its buffer exactly if the call
gets through, the file fits or `max` is a whole number of chunks, and the length is an `int`. -/
theorem afs_read_respects_buffer_iff (fs : Fs) (name : List UInt8) (i : Fin afsMaxFiles)
    (buf max : Nat) (hends : NamesEnd fs.dir)
    (hfound : findRaw (fs.sector afsDirLba) name = some i) :
    RespectsBuffer fs name i buf max ↔ fs.GetsThrough i buf max ∧
      ((fs.dir i).size ≤ max ∨ max % chunkSize = 0) ∧ min (fs.dir i).size max < 2 ^ 31 := by
  replace hfound := (findRaw_eq_findName hends name).symm.trans hfound
  by_cases hthrough : fs.GetsThrough i buf max
  · rw [and_iff_right hthrough]
    obtain ⟨len, hlen, hresult, hstored⟩ := afsReadInto_through hfound hthrough
    constructor
    · intro h
      have hlength := congrArg List.length (hstored.symm.trans h.stored)
      rw [Fs.length_fileBytes, Fs.length_fileBytes] at hlength
      refine ⟨(min_chunksOf_eq_iff _ _).mp (hlen.symm.trans hlength), ?_⟩
      rw [← int32_natCast_eq_iff, ← hlength, ← hresult, h.returned, hlength]
    · rintro ⟨hfits, hint⟩
      have hmin := hlen.trans ((min_chunksOf_eq_iff _ _).mpr hfits)
      subst hmin
      exact ⟨hresult.trans ((int32_natCast_eq_iff _).mpr hint), hstored⟩
  · refine iff_of_false (fun h => ?_) fun h => hthrough h.1
    have hresult := h.returned
    rw [(afsReadInto_stopped hfound hthrough).2] at hresult
    omega

lemma longFs_namesEnd : NamesEnd longFs.dir := by
  unfold NamesEnd
  decide +kernel

/-- A buffer of one chunk: the file fits. -/
theorem afs_read_respects_buffer_chunk :
    (afsReadInto longFs (some [97]) 1 4096).result = 3000 ∧
      RespectsBuffer longFs [97] firstEntry 1 4096 := by
  refine ⟨by decide +kernel, (afs_read_respects_buffer_iff longFs [97] firstEntry 1 4096
    longFs_namesEnd ?_).mpr ⟨⟨?_, by decide, by decide, ?_, ?_⟩, .inr (by decide), ?_⟩⟩
  · exact (findRaw_eq_findName longFs_namesEnd _).trans longFs_found
  · decide
  · unfold Fs.Serves
    decide +kernel
  · unfold Fs.ServesChunks Fs.Serves
    decide +kernel
  · rw [longFs_size]
    decide

/-- `cat` has a buffer of 2048 bytes and passes 2047: a file of 3000 bytes is stored
whole, 952 bytes past the end of the buffer. -/
theorem cat_overruns_buffer : (afsReadInto longFs (some [97]) 1 2047).stored.length = 3000 ∧
    (afsReadInto longFs (some [97]) 1 2047).result = 3000 := by
  decide +kernel

end Aeos.Afs
