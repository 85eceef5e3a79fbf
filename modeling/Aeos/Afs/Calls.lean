/-
# What the calls do

Where `afs_write` puts the data, what its loop does to the volume, and every way
`afs_write`, `afs_delete` and `afs_mount` can end.
-/

import Aeos.Afs.Layout

namespace Aeos.Afs

open Lib List Option Function

lemma fnameEq_iff (a b : List UInt8) : fnameEq a b = true ↔ cstr a = cstr b := by
  induction a generalizing b with
  | nil =>
    cases b with
    | nil => simp [fnameEq]
    | cons y bs => by_cases hy : y = 0 <;> simp [fnameEq, cstr, hy]
  | cons x as ih =>
    cases b with
    | nil => by_cases hx : x = 0 <;> simp [fnameEq, cstr, hx]
    | cons y bs =>
      by_cases hx : x = 0
      · by_cases hy : y = 0
        · simp [fnameEq, cstr, hx, hy]
        · simp [fnameEq, cstr, hx, hy, Ne.symm hy]
      by_cases hy : y = 0
      · simp [fnameEq, cstr, hx, hy]
      by_cases hxy : x = y
      · subst hxy
        simp only [fnameEq, ne_eq, hx, not_false_eq_true, and_self, if_true, ih]
        simp [cstr, hx]
      · simp [fnameEq, cstr, hx, hy, hxy]

/-- The lookup on the bytes of the directory, as `find_slot` makes it: nothing stops `fname_eq` at
the end of a name field, so that it reads on through the rest of the entry and the entries behind
it. -/
def findRaw (b : Nat → UInt8) (name : List UInt8) : Option (Fin afsMaxFiles) :=
  (List.finRange afsMaxFiles).find? fun i => leWord b (32 * i + 24) ≠ 0 ∧
    fnameEq ((List.range (sectSize - 32 * i)).map fun j => b (32 * i + j)) name

/-- Every name in use has its NUL within its field. -/
def NamesEnd (d : Dir) : Prop := ∀ i, (d i).startLba ≠ 0 → 0 ∈ (d i).name

/-- Where the names are ended, `findName` is the lookup of the source. -/
lemma findRaw_eq_findName {b : Nat → UInt8} (hends : NamesEnd (dirDecode b)) (name : List UInt8) :
    findRaw b name = findName (dirDecode b) name := by
  refine congrArg (fun p => (List.finRange afsMaxFiles).find? p) (funext fun i => ?_)
  rw [decide_eq_decide]
  refine and_congr_right fun hlive => ?_
  have hi : 32 * (i : Nat) + 32 ≤ sectSize := by
    have := i.isLt
    simp only [afsMaxFiles, sectSize] at *
    omega
  have hfield : (List.range afsNameLen).map (fun j => b (32 * i + j)) = (dirDecode b i).name :=
    ext_getElem (by simp [dirDecode]) fun j _ _ => by simp [dirDecode]
  have hsplit : sectSize - 32 * (i : Nat) = afsNameLen + (sectSize - 32 * i - afsNameLen) := by
    simp only [afsNameLen]
    omega
  rw [fnameEq_iff, fnameEq_iff, hsplit, range_add, map_append, hfield,
    cstr_append_of_zero_mem (hends i hlive)]

lemma cstr_nameField (name : List UInt8) :
  cstr (nameField name) = (cstr name).take (afsNameLen - 1) :=
  cstr_append_replicate (fun _ hb => ne_zero_of_mem_cstr (mem_of_mem_take hb)) _

lemma cstr_nameField_eq_iff (name : List UInt8) :
  cstr (nameField name) = cstr name ↔ (cstr name).length < afsNameLen := by
  rw [cstr_nameField, take_eq_self_iff]
  simp only [afsNameLen]
  omega

lemma zero_mem_nameField (name : List UInt8) : 0 ∈ nameField name := by
  have hlen : ((cstr name).take (afsNameLen - 1)).length < afsNameLen := by
    simp [afsNameLen]
  refine mem_append_right _ (mem_replicate.mpr ⟨?_, rfl⟩)
  omega

variable {d : Dir} {name : List UInt8} {i : Fin afsMaxFiles} {lba len k : Nat} {fs : Fs}

lemma findName_some (hfound : findName d name = some i) :
  (d i).Live ∧ cstr (d i).name = cstr name := by
  have hprop := List.find?_some hfound
  simp only [ne_eq, decide_not, Bool.decide_and, Bool.decide_eq_true, Bool.and_eq_true,
    Bool.not_eq_eq_eq_not, Bool.not_true, decide_eq_false_iff_not] at hprop
  exact ⟨hprop.1, (fnameEq_iff _ _).mp hprop.2⟩

lemma findName_none (hnone : findName d name = none) (hlive : (d i).Live) :
  cstr (d i).name ≠ cstr name := by
  intro heq
  have hprop := List.find?_eq_none.mp hnone i (mem_finRange i)
  rw [← fnameEq_iff] at heq
  have hstart : (d i).startLba ≠ 0 := hlive
  exact hprop (by simp [heq, hstart])

lemma findName_congr {d' : Dir} (h : ∀ i, ((d' i).Live ∧ cstr (d' i).name = cstr name) ↔
    ((d i).Live ∧ cstr (d i).name = cstr name)) : findName d' name = findName d name := by
  refine congrArg (fun p => (List.finRange afsMaxFiles).find? p) (funext fun i => ?_)
  rw [decide_eq_decide, fnameEq_iff, fnameEq_iff]
  exact h i

lemma findName_update (hothers : ∀ j, j ≠ i → (d j).Live → cstr (d j).name ≠ cstr name)
  (e : Dirent) : findName (update d i e) name =
    if e.Live ∧ cstr e.name = cstr name then some i else none := by
  cases hfound : findName (update d i e) name with
  | some j =>
    obtain ⟨hlive, heq⟩ := findName_some hfound
    by_cases hij : j = i
    · subst hij
      rw [update_self] at hlive heq
      rw [if_pos ⟨hlive, heq⟩]
    rw [update_of_ne hij] at hlive heq
    exact absurd heq (hothers j hij hlive)
  | none =>
    have hnot := findName_none hfound (i := i)
    rw [update_self] at hnot
    rw [if_neg fun h => hnot h.1 h.2]

lemma findName_update_of_ne {e : Dirent} (hold : (d i).Live → cstr (d i).name ≠ cstr name)
  (hnew : e.Live → cstr e.name ≠ cstr name) : findName (update d i e) name = findName d name := by
  refine findName_congr fun j => ?_
  by_cases hij : j = i
  · subst hij
    rw [update_self]
    exact iff_of_false (fun h => hnew h.1 h.2) fun h => hold h.1 h.2
  · rw [update_of_ne hij]

lemma findName_moved (hfound : findName d name = some i) (hlive : ((d i).setStart lba).Live) :
  findName (update d i ((d i).setStart lba)) name = some i := by
  rw [← hfound]
  refine findName_congr fun j => ?_
  by_cases hij : j = i
  · subst hij
    rw [update_self]
    exact iff_of_true ⟨hlive, (findName_some hfound).2⟩ (findName_some hfound)
  · rw [update_of_ne hij]

/-! ## Placement -/

def sectorsFor (len : Nat) : Nat := (len + (sectSize - 1)) / sectSize

/-- Where `afs_write` puts `n` sectors of data for a name: entry `i`, first sector
`lba`, and the directory with the entry committed early. -/
inductive Placement (ram : Ram) (d : Dir) (name : List UInt8) (n : Nat) (i : Fin afsMaxFiles)
    (lba : Nat) : Dir → Prop
  /-- The file has room for the new contents. -/
  | inPlace (hfound : findName d name = some i) (hlba : (d i).startLba = lba)
      (hn : n ≤ (d i).extent.count) : Placement ram d name n i lba d
  /-- The file moves to new sectors; its old ones are not reclaimed. -/
  | moved (hfound : findName d name = some i) (hres : Reserved ram d ⟨lba, n⟩) :
      Placement ram d name n i lba (update d i ((d i).setStart lba))
  /-- A new file. -/
  | created (hnone : findName d name = none) (hfree : ¬ (d i).Live)
      (hres : Reserved ram d ⟨lba, n⟩) :
      Placement ram d name n i lba (update d i ((Dirent.fresh name).setStart lba))

section
variable {ram : Ram} {d : Dir} {name : List UInt8} {n : Nat} {i : Fin afsMaxFiles}

lemma placeFile_inPlace (hfound : findName d name = some i) (hn : n ≤ nlbasOf (d i).size) :
  placeFile ram d name n = (some ((d i).startLba, d), ram) := by
  simp [placeFile, findSlot, hfound, hn]

lemma placeFile_moved (hfound : findName d name = some i) (hn : ¬ n ≤ nlbasOf (d i).size) :
  placeFile ram d name n =
    ((allocSectors ram n).1.map fun lba => (lba, update d i ((d i).setStart lba)),
      (allocSectors ram n).2) := by
  rcases halloc : allocSectors ram n with ⟨got, ram'⟩
  cases got <;> simp [placeFile, findSlot, hfound, hn, halloc]

variable (hnone : findName d name = none)
include hnone

lemma placeFile_full
    (hfull : ((List.finRange afsMaxFiles).find? fun i => (d i).startLba = 0) = none) :
  placeFile ram d name n = (none, ram) := by
  simp [placeFile, findSlot, hnone, hfull]

lemma placeFile_created
    (hfree : ((List.finRange afsMaxFiles).find? fun i => (d i).startLba = 0) = some i) :
  placeFile ram d name n = ((allocSectors ram n).1.map fun lba =>
      (lba, update d i ((Dirent.fresh name).setStart lba)), (allocSectors ram n).2) := by
  rcases halloc : allocSectors ram n with ⟨got, ram'⟩
  cases got <;> simp [placeFile, findSlot, hnone, hfree, halloc]

end

lemma placeFile_spec {ram : Ram} (name : List UInt8) {n : Nat} (h : Layout ram d)
  (hmounted : ram.mounted = true) (hroom : ram.nextFreeLba + n < 2 ^ 32) :
  SpaceOnly ram (placeFile ram d name n).2 ∧ Layout (placeFile ram d name n).2 d ∧
    ∀ lba d', (placeFile ram d name n).1 = some (lba, d') →
      ∃ i, Placement (placeFile ram d name n).2 d name n i lba d' := by
  obtain ⟨hspace, hlayout, hres⟩ := allocSectors_spec h hmounted hroom
  cases hfound : findName d name with
  | some i =>
    by_cases hn : n ≤ nlbasOf (d i).size
    · have hsize := (h.dir.entry i (findName_some hfound).1).size
      have hcount : nlbasOf (d i).size = (d i).extent.count := nlbasOf_eq hsize
      rw [placeFile_inPlace hfound hn]
      refine ⟨SpaceOnly.refl ram, h, fun lba d' heq => ⟨i, ?_⟩⟩
      obtain ⟨rfl, rfl⟩ := Prod.mk.inj (some.inj heq)
      exact .inPlace hfound rfl (hcount ▸ hn)
    rw [placeFile_moved hfound hn]
    refine ⟨hspace, hlayout, fun lba' d' heq => ⟨i, ?_⟩⟩
    obtain ⟨lba, hgot, heq⟩ := map_eq_some_iff.mp heq
    obtain ⟨rfl, rfl⟩ := Prod.mk.inj heq
    exact .moved hfound (hres lba hgot)
  | none =>
    cases hfree : (List.finRange afsMaxFiles).find? fun i => (d i).startLba = 0 with
    | none =>
      rw [placeFile_full hfound hfree]
      exact ⟨SpaceOnly.refl ram, h, fun lba d' heq => by cases heq⟩
    | some i =>
      rw [placeFile_created hfound hfree]
      refine ⟨hspace, hlayout, fun lba' d' heq => ⟨i, ?_⟩⟩
      obtain ⟨lba, hgot, heq⟩ := map_eq_some_iff.mp heq
      obtain ⟨rfl, rfl⟩ := Prod.mk.inj heq
      have hzero : (d i).startLba = 0 := by simpa using List.find?_some hfree
      exact .created hfound (fun hlive => hlive hzero) (hres lba hgot)

namespace Placement

variable {ram : Ram} {d d' : Dir} {name : List UInt8} {n lba : Nat} {i : Fin afsMaxFiles}
variable (hp : Placement ram d name n i lba d')
include hp

lemma bounds (h : Layout ram d) : 2 ≤ lba ∧ lba + n < 2 ^ 32 := by
  cases hp with
  | inPlace hfound hlba hn =>
    have hsound := h.dir.entry i (findName_some hfound).1
    have hstart := hsound.start
    have hstop := hsound.stop
    simp only [Extent.stop, Dirent.extent] at hstop hn
    omega
  | moved _ hres => exact ⟨hres.start, hres.stop⟩
  | created _ _ hres => exact ⟨hres.start, hres.stop⟩

lemma startLba_eq (h : Layout ram d) : (d' i).startLba = lba := by
  have hlba : u32 lba = lba := u32_of_lt (by have := hp.bounds h; omega)
  cases hp with
  | inPlace _ hstart _ => exact hstart
  | moved | created =>
    rw [update_self]
    exact hlba

lemma update_eq (e : Dirent) : update d' i e = update d i e := by
  cases hp with
  | inPlace => rfl
  | moved | created => exact Function.update_idem _ _ _

variable (h : Layout ram d)
include h

lemma findName_eq : findName d' name =
    if findName d name = none ∧ afsNameLen ≤ (cstr name).length then none else some i := by
  have hlive : ∀ e : Dirent, (e.setStart lba).Live := by
    have := hp.bounds h
    exact fun e => live_setStart e (by omega) (by omega)
  cases hp with
  | inPlace hfound => simp [hfound]
  | moved hfound =>
    rw [findName_moved hfound (hlive _)]
    simp [hfound]
  | created hnone =>
    have hname : cstr ((Dirent.fresh name).setStart lba).name = cstr name ↔
        (cstr name).length < afsNameLen := cstr_nameField_eq_iff name
    rw [findName_update fun j _ hj => findName_none hnone hj]
    simp only [hlive, hname, hnone, true_and, ← not_lt, ite_not]

lemma stop_le (hmounted : ram.mounted = true) : lba + n ≤ ram.nextFreeLba := by
  cases hp with
  | inPlace hfound hlba hn =>
    refine le_trans ?_ ((h.next hmounted).2.2.1 i (findName_some hfound).1)
    rw [← hlba]
    exact Nat.add_le_add_left hn _
  | moved _ hres => exact hres.next
  | created _ _ hres => exact hres.next

lemma extent_eq {len : Nat} (hlen : len ≤ maxSize) (hn : sectorsFor len = n) :
  ((d' i).setSize len).extent = ⟨lba, n⟩ := by
  have hstart : ((d' i).setSize len).startLba = lba := hp.startLba_eq h
  rw [Dirent.extent, hstart, size_setSize _ hlen, ← hn]
  rfl

lemma fits {len : Nat} (hlen : len ≤ maxSize) (hn : sectorsFor len = n) :
  Fits ram d i ((d' i).setSize len) := by
  obtain ⟨hlo, hhi⟩ := hp.bounds h
  have hextent := hp.extent_eq h hlen hn
  have hsound : 0 ∈ (d' i).name → ((d' i).setSize len).Sound := by
    refine fun hended => ⟨?_, ?_, by rwa [hextent], hended⟩
    · exact (hp.startLba_eq h).symm ▸ hlo
    · rwa [size_setSize _ hlen]
  cases hp with
  | inPlace hfound hlba hcount =>
    have hlive := (findName_some hfound).1
    have hin : ((d i).setSize len).extent.Within (d i).extent := by
      rw [hextent, ← hlba]
      exact Extent.front_within hcount
    refine ⟨hsound (h.dir.entry i hlive).ended, fun j hj hlj => ?_, fun f hf => ?_,
      fun hmounted => ?_⟩
    · exact (h.dir.apart i j (Ne.symm hj) hlive hlj).within hin
    · exact (h.mixed i hlive f hf).within hin
    refine le_trans ?_ ((h.next hmounted).2.2.1 i hlive)
    rw [hextent, ← hlba]
    exact Nat.add_le_add_left hcount _
  | moved hfound hres =>
    have hended := (h.dir.entry i (findName_some hfound).1).ended
    rw [update_self] at hextent hsound ⊢
    exact ⟨hsound hended, fun j _ hlj => by rw [hextent]; exact hres.live j hlj,
      fun f hf => by rw [hextent]; exact hres.free f hf,
      fun _ => by rw [hextent]; exact hres.next⟩
  | created hnone _ hres =>
    rw [update_self] at hextent hsound ⊢
    exact ⟨hsound (zero_mem_nameField name), fun j _ hlj => by rw [hextent]; exact hres.live j hlj,
      fun f hf => by rw [hextent]; exact hres.free f hf,
      fun _ => by rw [hextent]; exact hres.next⟩

end Placement

def chunkLen (len k : Nat) : Nat := min (len - k * chunkSize) chunkSize

lemma lt_chunksOf_iff : k < chunksOf len ↔ k * chunkSize < len := by
  simp only [chunksOf, chunkSize]
  omega

lemma chunk_sectors (hk : k * chunkSize < len) :
  sectorsFor (chunkLen len k) ≠ 0 ∧ k * chunkSize / sectSize = 8 * k ∧
    8 * k + sectorsFor (chunkLen len k) ≤ sectorsFor len := by
  simp only [sectorsFor, chunkLen, sectSize, chunkSize] at *
  omega

lemma chunk_sectors_last (hk : chunksOf len = k + 1) :
  8 * k + sectorsFor (chunkLen len k) = sectorsFor len := by
  simp only [chunksOf, sectorsFor, chunkLen, sectSize, chunkSize] at *
  omega

variable {data : List UInt8}

lemma writeChunk_eq (fs : Fs) (lba : Nat) (hk : k * chunkSize < data.length) : ∃ slot buf,
  (∀ j < chunkLen data.length k, buf j = data.getD (k * chunkSize + j) 0) ∧
  writeChunk fs lba data k =
    if (fs.setBuf slot buf).refuses (u32 (lba + 8 * k)) (sectorsFor (chunkLen data.length k)) then
      (false, (fs.setBuf slot buf).counted) else
      (true, (fs.setBuf slot buf).stored (u32 (lba + 8 * k)) buf
        (sectorsFor (chunkLen data.length k))) := by
  obtain ⟨hsec, hoff, _⟩ := chunk_sectors hk
  refine ⟨k % iobufSlots, overwrite (fs.ram.iobuf (k % iobufSlots)) 0 (chunkLen data.length k)
    fun j => data.getD (k * chunkSize + j) 0, fun j hj => overwrite_zero hj, ?_⟩
  rw [← wrSectors_eq _ _ _ hsec, ← hoff]
  rfl

lemma writeChunks_kept {R : Fs → Fs → Prop} (data : List UInt8)
  (hend : lba + sectorsFor data.length < 2 ^ 32) (hrefl : ∀ fs, R fs fs)
  (htrans : ∀ {fs fs' fs''}, R fs fs' → R fs' fs'' → R fs fs'')
  (hbuf : ∀ fs slot buf, R fs (fs.setBuf slot buf)) (hcounted : ∀ fs : Fs, R fs fs.counted)
  (hstored : ∀ fs l n buf, lba ≤ l → l + n ≤ lba + sectorsFor data.length →
    R fs (fs.stored l buf n)) (fs : Fs) :
  ∀ n ≤ chunksOf data.length, R fs (writeChunks fs lba data n).2 := by
  intro n
  induction n with
  | zero => exact fun _ => hrefl fs
  | succ k ih =>
    intro hk
    have hprev := ih (Nat.le_of_succ_le hk)
    rw [writeChunks]
    rcases hloop : writeChunks fs lba data k with ⟨ok, fs₁⟩
    rw [hloop] at hprev
    cases ok with
    | false => exact hprev
    | true =>
      have hk' := lt_chunksOf_iff.mp (Nat.lt_of_succ_le hk)
      obtain ⟨_, _, hsec⟩ := chunk_sectors hk'
      obtain ⟨slot, buf, _, hcall⟩ := writeChunk_eq fs₁ lba hk'
      have hset := htrans hprev (hbuf fs₁ slot buf)
      dsimp only
      rw [hcall]
      split_ifs
      · exact htrans hset (hcounted _)
      apply htrans hset
      apply hstored <;> rw [u32_of_lt (by omega)] <;> omega

lemma writeChunks_meta (fs : Fs) (data : List UInt8) (hlba : 2 ≤ lba)
  (hend : lba + sectorsFor data.length < 2 ^ 32) :
  ∀ n ≤ chunksOf data.length, MetaKept fs (writeChunks fs lba data n).2 := by
  apply writeChunks_kept data hend MetaKept.refl MetaKept.trans MetaKept.setBuf MetaKept.counted
  intro fs l n buf hlo hhi
  exact MetaKept.stored (hlba.trans hlo) (by omega) buf

/-! ## The loop of `afs_read` -/

lemma readChunk_readOnly (fs : Fs) (lba size k : Nat) :
  ReadOnly fs (readChunk fs lba size k).2 := by
  have hread := rdSectors_readOnly fs (u32 (lba + k * chunkSize / sectSize))
    (fs.ram.iobuf ((k + 1) % iobufSlots))
    ((min (size - k * chunkSize) chunkSize + (sectSize - 1)) / sectSize)
  unfold readChunk
  dsimp only
  split
  next heq =>
    rw [heq] at hread
    exact hread
  next heq =>
    rw [heq] at hread
    exact hread.trans (ReadOnly.setBuf _ _ _)

lemma readChunks_readOnly (fs : Fs) (lba size n : Nat) :
  ReadOnly fs (readChunks fs lba size n).2 := by
  induction n with
  | zero => exact ReadOnly.refl fs
  | succ n ih =>
    rw [readChunks]
    rcases hloop : readChunks fs lba size n with ⟨out, fs₁⟩
    rw [hloop] at ih
    cases out with
    | none => exact ih
    | some out =>
      have hone := ih.trans (readChunk_readOnly fs₁ lba size n)
      dsimp only
      rcases hcall : readChunk fs₁ lba size n with ⟨bytes, fs₂⟩
      rw [hcall] at hone
      cases bytes <;> exact hone

lemma afsRead_readOnly (fs : Fs) (name : Option (List UInt8)) (buf max : Nat) :
  ReadOnly fs (afsRead fs name buf max).2 := by
  cases name with
  | none => exact ReadOnly.refl fs
  | some name =>
    have hload := dirLoad_readOnly fs
    simp only [afsRead]
    split_ifs
    · exact ReadOnly.refl fs
    rcases hdir : dirLoad fs with ⟨d, fs₁⟩
    rw [hdir] at hload
    cases d with
    | none => exact hload
    | some d =>
      dsimp only
      split
      · exact hload
      · exact hload.trans (readChunks_readOnly fs₁ _ _ _)

/-! ## Every way a write can end -/

inductive WriteResult (fs : Fs) (name data : List UInt8) : Option Nat → Fs → Prop
  /-- The directory cannot be loaded. -/
  | unread (hload : fs.refuses afsDirLba 1 = true) : WriteResult fs name data none fs.counted
  /-- The table or the disk is full. -/
  | noRoom {ram : Ram}
      (hplace : placeFile fs.ram fs.dir name (sectorsFor data.length) = (none, ram)) :
      WriteResult fs name data none { fs.counted with ram := ram }
  /-- A data request fails. -/
  | broken {lba : Nat} {d : Dir} {ram : Ram} {fs' : Fs}
      (hplace : placeFile fs.ram fs.dir name (sectorsFor data.length) = (some (lba, d), ram))
      (hloop : writeChunks { fs.counted with ram := ram } lba data (chunksOf data.length) =
        (false, fs')) : WriteResult fs name data none fs'
  /-- The name does not fit and is not found again. -/
  | nameless {lba : Nat} {d : Dir} {ram : Ram} {fs' : Fs}
      (hplace : placeFile fs.ram fs.dir name (sectorsFor data.length) = (some (lba, d), ram))
      (hloop : writeChunks { fs.counted with ram := ram } lba data (chunksOf data.length) =
        (true, fs')) (hnone : findName d name = none) : WriteResult fs name data none fs'
  /-- The directory cannot be written. -/
  | unflushed {lba : Nat} {d : Dir} {ram : Ram} {fs' : Fs}
      (hplace : placeFile fs.ram fs.dir name (sectorsFor data.length) = (some (lba, d), ram))
      (hloop : writeChunks { fs.counted with ram := ram } lba data (chunksOf data.length) =
        (true, fs')) (hflush : fs'.refuses afsDirLba 1 = true) :
      WriteResult fs name data none fs'.counted
  | written {lba : Nat} {d : Dir} {ram : Ram} {fs' : Fs} {i : Fin afsMaxFiles}
      (hplace : placeFile fs.ram fs.dir name (sectorsFor data.length) = (some (lba, d), ram))
      (hloop : writeChunks { fs.counted with ram := ram } lba data (chunksOf data.length) =
        (true, fs')) (hfound : findName d name = some i)
      (hflush : fs'.refuses afsDirLba 1 = false) :
      WriteResult fs name data (some data.length) (fs'.stored afsDirLba
        (dirEncode (update d i ((d i).setSize data.length))) 1)

lemma findSlot_false (d : Dir) (name : List UInt8) :
  findSlot d name false = (findName d name).map fun i => (i, d) := by
  unfold findSlot
  cases findName d name <;> rfl

lemma afsRead_loaded {buf max : Nat} (hmounted : fs.ram.mounted = true) (hbuf : buf ≠ 0)
  (hmax : max ≠ 0) (hload : fs.refuses afsDirLba 1 = false)
  (hfound : findName fs.dir name = some i) :
  afsRead fs (some name) buf max = readChunks fs.counted (fs.dir i).startLba (fs.dir i).size
    (chunksOf (min max (fs.dir i).size)) := by
  simp only [afsRead, hmounted, hbuf, hmax, dirLoad_eq, hload, findSlot_false, hfound,
    map_some, Bool.not_true, decide_false, Bool.or_self, Bool.false_eq_true, if_false]

lemma afsRead_absent (hnone : findName fs.dir name = none) (buf max : Nat) :
  (afsRead fs (some name) buf max).1 = none := by
  simp only [afsRead, dirLoad_eq, findSlot_false]
  split_ifs
  · rfl
  · rfl
  · simp only [hnone, map_none]

def Writable (fs : Fs) (data : List UInt8) : Prop :=
  fs.ram.mounted = true ∧ data.length ≠ 0 ∧ data.length ≤ maxSize

instance (fs : Fs) (data : List UInt8) : Decidable (Writable fs data) := by
  unfold Writable
  infer_instance

lemma afsWrite_guard (fs : Fs) (data : List UInt8) :
  (!fs.ram.mounted || decide (data.length = 0) || decide (1024 * 1024 < data.length)) =
    !decide (Writable fs data) := by
  rw [Bool.eq_iff_iff]
  cases hmounted : fs.ram.mounted with
  | false => simp [Writable, hmounted]
  | true =>
    simp only [Bool.not_true, Bool.false_or, Bool.or_eq_true, decide_eq_true_eq,
      Bool.not_eq_true', decide_eq_false_iff_not, Writable, hmounted, maxSize, true_and]
    omega

lemma afsWrite_result (name : List UInt8) (hargs : Writable fs data) :
  WriteResult fs name data (afsWrite fs (some name) (some data)).1
    (afsWrite fs (some name) (some data)).2 := by
  simp only [afsWrite, afsWrite_guard, hargs, decide_true, Bool.not_true, Bool.false_eq_true,
    if_false, dirLoad_eq]
  cases hload : fs.refuses afsDirLba 1 with
  | true => exact .unread hload
  | false =>
    simp only [Bool.false_eq_true, if_false]
    rcases hplace : placeFile fs.counted.ram fs.dir name
      ((data.length + (sectSize - 1)) / sectSize) with ⟨placed, ram⟩
    cases placed with
    | none => exact .noRoom hplace
    | some placed =>
      obtain ⟨lba, d⟩ := placed
      dsimp only
      rcases hloop : writeChunks { fs.counted with ram := ram } lba data
        (chunksOf data.length) with ⟨ok, fs'⟩
      cases ok with
      | false => exact .broken hplace hloop
      | true =>
        simp only [commitFile, findSlot_false]
        cases hfound : findName d name with
        | none => exact .nameless hplace hloop hfound
        | some i =>
          simp only [map_some, dirFlush_eq]
          cases hflush : fs'.refuses afsDirLba 1 with
          | true => exact .unflushed hplace hloop hflush
          | false => exact .written hplace hloop hfound hflush

lemma afsWrite_cases (fs : Fs) (name data : Option (List UInt8)) :
  afsWrite fs name data = (none, fs) ∨
    ∃ name' data', name = some name' ∧ data = some data' ∧ Writable fs data' ∧
      WriteResult fs name' data' (afsWrite fs name data).1 (afsWrite fs name data).2 := by
  cases name with
  | none => exact .inl rfl
  | some name =>
    cases data with
    | none => exact .inl rfl
    | some data =>
      by_cases hargs : Writable fs data
      · exact .inr ⟨name, data, rfl, rfl, hargs, afsWrite_result name hargs⟩
      exact .inl (by simp only [afsWrite, afsWrite_guard, hargs, decide_false, Bool.not_false,
        if_true])

def freedList (free : List Extent) (e : Dirent) : List Extent :=
  if 0 < e.extent.count ∧ free.length < afsMaxFreeExtents then free ++ [e.extent] else free

def Fs.freed (fs : Fs) (i : Fin afsMaxFiles) : Fs :=
  { fs.counted with
    ram := { fs.ram with freeExtents := freedList fs.ram.freeExtents (fs.dir i) } }

inductive DeleteResult (fs : Fs) (name : List UInt8) : Bool → Fs → Prop
  | unread (hload : fs.refuses afsDirLba 1 = true) : DeleteResult fs name false fs.counted
  | missing (hnone : findName fs.dir name = none) : DeleteResult fs name false fs.counted
  /-- The sectors are on the free list, but the entry stays on the disk. -/
  | unflushed {i : Fin afsMaxFiles} (hload : fs.refuses afsDirLba 1 = false)
      (hfound : findName fs.dir name = some i)
      (hflush : (fs.freed i).refuses afsDirLba 1 = true) :
      DeleteResult fs name false (fs.freed i).counted
  | deleted {i : Fin afsMaxFiles} (hfound : findName fs.dir name = some i)
      (hflush : (fs.freed i).refuses afsDirLba 1 = false) :
      DeleteResult fs name true ((fs.freed i).stored afsDirLba
        (dirEncode (update fs.dir i Dirent.zero)) 1)

lemma afsDelete_cases (hdir : SoundDir fs.dir) (hmounted : fs.ram.mounted = true)
  (name : List UInt8) : DeleteResult fs name (afsDelete fs name).1 (afsDelete fs name).2 := by
  simp only [afsDelete, hmounted, Bool.not_true, Bool.false_eq_true, if_false, dirLoad_eq,
    findSlot_false]
  cases hload : fs.refuses afsDirLba 1 with
  | true => exact .unread hload
  | false =>
    simp only [Bool.false_eq_true, if_false]
    cases hfound : findName fs.dir name with
    | none => exact .missing hfound
    | some i =>
      have hlive : (fs.dir i).startLba ≠ 0 := (findName_some hfound).1
      have hcount : nlbasOf (fs.dir i).size = (fs.dir i).extent.count :=
        nlbasOf_eq (hdir.entry i hlive).size
      have hfree : (if (fs.dir i).startLba ≠ 0 ∧ 0 < nlbasOf (fs.dir i).size then
          addToFreeList fs.counted.ram.freeExtents (fs.dir i).startLba
            (nlbasOf (fs.dir i).size)
          else fs.counted.ram.freeExtents) = freedList fs.ram.freeExtents (fs.dir i) := by
        have hram : fs.counted.ram = fs.ram := rfl
        have hextent : (⟨(fs.dir i).startLba, (fs.dir i).extent.count⟩ : Extent) =
          (fs.dir i).extent := rfl
        simp only [hram, hlive, ne_eq, not_false_eq_true, true_and, hcount, addToFreeList,
          hextent, freedList, ← not_lt, ite_not]
        split_ifs <;> simp_all
      simp only [map_some, hfree, dirFlush_eq]
      change DeleteResult fs name
        (if (fs.freed i).refuses afsDirLba 1 = true then (false, (fs.freed i).counted)
          else (true, (fs.freed i).stored afsDirLba _ 1)).1
        (if (fs.freed i).refuses afsDirLba 1 = true then (false, (fs.freed i).counted)
          else (true, (fs.freed i).stored afsDirLba _ 1)).2
      cases hflush : (fs.freed i).refuses afsDirLba 1 with
      | true => exact .unflushed hload hfound hflush
      | false => exact .deleted hfound hflush

/-! ## Mounting -/

lemma endLba_eq {e : Dirent} (hsize : e.size + (sectSize - 1) < 2 ^ 32)
  (hstop : e.extent.stop < 2 ^ 32) : e.endLba = e.extent.stop := by
  rw [Dirent.endLba, nlbasOf, u32_of_lt hsize]
  exact u32_of_lt hstop

lemma resumeStep_spec (d : Dir) (next : Nat) (i : Fin afsMaxFiles) :
  next ≤ resumeStep d next i ∧ ((d i).Live → (d i).endLba ≤ resumeStep d next i) ∧
    (resumeStep d next i = next ∨ ((d i).Live ∧ resumeStep d next i = (d i).endLba)) := by
  unfold resumeStep
  by_cases hlive : (d i).startLba = 0
  · rw [if_pos hlive]
    exact ⟨le_rfl, fun h => absurd hlive h, .inl rfl⟩
  split_ifs with hlt
  · exact ⟨hlt.le, fun _ => le_rfl, .inr ⟨hlive, rfl⟩⟩
  · exact ⟨le_rfl, fun _ => not_lt.mp hlt, .inl rfl⟩

lemma resumeLba_bounds (d : Dir) (start : Nat) :
  start ≤ resumeLba start d ∧ (∀ i, (d i).Live → (d i).endLba ≤ resumeLba start d) ∧
    (resumeLba start d = start ∨ ∃ i, (d i).Live ∧ resumeLba start d = (d i).endLba) := by
  have hloop : ∀ (l : List (Fin afsMaxFiles)) (next : Nat),
      next ≤ l.foldl (resumeStep d) next ∧
        (∀ i ∈ l, (d i).Live → (d i).endLba ≤ l.foldl (resumeStep d) next) ∧
        (l.foldl (resumeStep d) next = next ∨
          ∃ i, (d i).Live ∧ l.foldl (resumeStep d) next = (d i).endLba) := by
    intro l
    induction l with
    | nil => exact fun next => ⟨le_rfl, by simp, .inl rfl⟩
    | cons i l ih =>
      intro next
      obtain ⟨hstep, hlive, hcase⟩ := resumeStep_spec d next i
      obtain ⟨hle, hall, hr⟩ := ih (resumeStep d next i)
      refine ⟨hstep.trans hle, fun j hj hlj => ?_, ?_⟩
      · rcases mem_cons.mp hj with rfl | hj
        · exact (hlive hlj).trans hle
        · exact hall j hj hlj
      rw [foldl_cons]
      rcases hr with hr | hr
      · rw [hr]
        exact hcase.imp_right fun h => ⟨i, h⟩
      · exact .inr hr
  obtain ⟨hle, hall, hr⟩ := hloop (List.finRange afsMaxFiles) start
  exact ⟨hle, fun i hi => hall i (mem_finRange i) hi, hr⟩

lemma resumeLba_spec (hdir : SoundDir d) (start : Nat) :
  start ≤ resumeLba start d ∧ (∀ i, (d i).Live → (d i).extent.stop ≤ resumeLba start d) ∧
    (resumeLba start d = start ∨ ∃ i, (d i).Live ∧ resumeLba start d = (d i).extent.stop) := by
  have hend : ∀ i, (d i).Live → (d i).endLba = (d i).extent.stop := by
    intro i hlive
    have hsound := hdir.entry i hlive
    apply endLba_eq _ hsound.stop
    exact Nat.lt_of_le_of_lt (Nat.add_le_add_right hsound.size _) (by decide)
  obtain ⟨hle, hall, hr⟩ := resumeLba_bounds d start
  refine ⟨hle, fun i hlive => ?_, hr.imp_right ?_⟩
  · rw [← hend i hlive]
    exact hall i hlive
  rintro ⟨i, hlive, heq⟩
  exact ⟨i, hlive, heq.trans (hend i hlive)⟩

def Fs.resumed (fs : Fs) : Nat :=
  if fs.counted.refuses afsDirLba 1 then fs.superblock.dataStartLba
  else resumeLba fs.superblock.dataStartLba fs.dir

def Fs.Mountable (fs : Fs) : Prop :=
  fs.dev.sectors ≠ 0 ∧ fs.refuses afsSbLba 1 = false ∧ fs.superblock.valid = true

lemma afsMount_cases (fs : Fs) :
  (¬ fs.Mountable ∧ (afsMount fs).1 = false ∧ MetaKept fs (afsMount fs).2) ∨
    (fs.Mountable ∧ ∃ iobuf, afsMount fs = (true, { fs.counted.counted with
        ram :=
          { fs.ram with
            totalSectors := fs.superblock.totalSectors
            dataLba := fs.superblock.dataStartLba
            nextFreeLba := fs.resumed
            mounted := true
            iobuf := iobuf } })) := by
  by_cases hsectors : fs.dev.sectors = 0
  · refine .inl ⟨fun h => h.1 hsectors, ?_⟩
    rw [afsMount, if_pos hsectors]
    exact ⟨rfl, MetaKept.refl fs⟩
  cases hread : fs.refuses afsSbLba 1 with
  | true =>
    refine .inl ⟨fun h => absurd (h.2.1.symm.trans hread) (by decide), ?_⟩
    simp only [afsMount, hsectors, if_false, rdSectors_eq _ _ _ one_ne_zero, hread, if_true]
    exact ⟨trivial, MetaKept.counted fs⟩
  | false =>
    have hsb : sbDecode (overwrite (fs.ram.iobuf 0) 0 (1 * sectSize) (fs.sector afsSbLba)) =
        fs.superblock :=
      sbDecode_congr fun j hj => overwrite_zero (by rwa [Nat.one_mul])
    cases hvalid : fs.superblock.valid with
    | false =>
      refine .inl ⟨fun h => absurd (h.2.2.symm.trans hvalid) (by decide), ?_⟩
      simp only [afsMount, hsectors, if_false, rdSectors_eq _ _ _ one_ne_zero, hread,
        Bool.false_eq_true, hsb, hvalid, Bool.not_false, if_true]
      exact ⟨trivial, (MetaKept.counted fs).trans (MetaKept.setBuf _ _ _)⟩
    | true =>
      refine .inr ⟨⟨hsectors, hread, hvalid⟩, (fs.setBuf 0 (overwrite (fs.ram.iobuf 0) 0
        (1 * sectSize) (fs.sector afsSbLba))).ram.iobuf, ?_⟩
      have hload : ∀ buf, (fs.counted.setBuf 0 buf).refuses afsDirLba 1 =
        fs.counted.refuses afsDirLba 1 := fun _ => rfl
      simp only [afsMount, hsectors, if_false, rdSectors_eq _ _ _ one_ne_zero, hread,
        Bool.false_eq_true, hsb, hvalid, Bool.not_true, dirLoad_eq, hload, Fs.resumed]
      cases fs.counted.refuses afsDirLba 1 <;> rfl

def Fs.formatted (fs : Fs) : Fs :=
  let sb := freshSuperblock fs.dev.sectors
  let iobuf := update (fun _ _ => 0) 0 (sbEncode sb)
  let fs : Fs := { fs with ram := { fs.ram with iobuf := iobuf } }
  let fs := (fs.stored afsSbLba (sbEncode sb) 1).stored afsDirLba (dirEncode fun _ => Dirent.zero) 1
  { fs with
    ram :=
      { fs.ram with
        totalSectors := sb.totalSectors
        dataLba := sb.dataStartLba
        nextFreeLba := sb.dataStartLba
        mounted := true } }

lemma Fs.dir_formatted (fs : Fs) : fs.formatted.dir = fun _ => Dirent.zero := dir_flushed _ _

lemma Fs.not_live_formatted (fs : Fs) (i : Fin afsMaxFiles) : ¬ (fs.formatted.dir i).Live := by
  rw [fs.dir_formatted]
  exact not_live_zero

lemma Fs.superblock_formatted (hbase : fs.ram.base + 2 ≤ 2 ^ 32) :
  fs.formatted.superblock = freshSuperblock fs.dev.sectors := by
  refine (superblock_flushed (by change fs.ram.base + 2 ≤ _; exact hbase) _).trans ?_
  refine (sbDecode_congr fun j hj => ?_).trans (sbDecode_freshSuperblock _)
  exact overwrite_inside (by rwa [Nat.one_mul])

lemma afsFormat_some {fs' : Fs} (hok : afsFormat fs = (true, fs')) :
  fs' = fs.formatted ∧ u32 (fs.ram.base + afsDirLba) + 1 ≤ fs.dev.sectors := by
  unfold afsFormat at hok
  split_ifs at hok
  · cases hok
  simp only [wrSectors_eq _ _ _ one_ne_zero, dirFlush_eq] at hok
  split at hok
  · cases hok
  next hsb =>
    split_ifs at hsb
    · cases hsb
    obtain ⟨_, rfl⟩ := Prod.mk.inj hsb
    split at hok
    · cases hok
    next hdir =>
      split_ifs at hdir with hrefused
      · cases hdir
      obtain ⟨_, rfl⟩ := Prod.mk.inj hdir
      obtain ⟨_, rfl⟩ := Prod.mk.inj hok
      have hin := Fs.range_of_not_refused (Bool.not_eq_true _ ▸ hrefused)
      exact ⟨rfl, hin⟩

/-- Inversion of `afs_format`. One that fails has changed no variable but the buffers, and no
file. -/
lemma afsFormat_cases (hbase : fs.ram.base + 2 ≤ 2 ^ 32) :
  ((afsFormat fs).1 = false ∧ (∃ iobuf, (afsFormat fs).2.ram = { fs.ram with iobuf := iobuf }) ∧
    (afsFormat fs).2.dev.sectors = fs.dev.sectors ∧ (afsFormat fs).2.dir = fs.dir) ∨
  (afsFormat fs = (true, fs.formatted) ∧
    u32 (fs.ram.base + afsDirLba) + 1 ≤ fs.dev.sectors) := by
  unfold afsFormat
  split_ifs
  · exact .inl ⟨rfl, ⟨fs.ram.iobuf, rfl⟩, rfl, rfl⟩
  simp only [wrSectors_eq _ _ _ one_ne_zero, dirFlush_eq]
  split_ifs with hsb
  · exact .inl ⟨rfl, ⟨_, rfl⟩, rfl, rfl⟩
  dsimp only
  split_ifs with hdir
  · exact .inl ⟨rfl, ⟨_, rfl⟩, rfl, dir_stored_superblock hbase _⟩
  have hin := Fs.range_of_not_refused (Bool.not_eq_true _ ▸ hdir)
  exact .inr ⟨rfl, hin⟩

end Aeos.Afs
