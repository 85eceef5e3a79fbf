/-
# Refused writes

`afs_write` takes its sectors before its last check, the second look for the entry.
-/

import Aeos.Afs.Requests

namespace Aeos.Afs

open Lib List Option

/-! ## Calls none of whose requests fails -/

namespace Requests

open LogM

/-- From request number `reqs` on, the device serves these requests one after the other. -/
def Served (sectors : Nat) (fault : Nat → Bool) : Nat → List Request → Prop
  | _, [] => True
  | reqs, r :: rs =>
    (r.count ≠ 0 ∧ fault reqs = false ∧ r.lba + r.count ≤ sectors) ∧
      Served sectors fault (reqs + 1) rs

instance decidableServed (sectors : Nat) (fault : Nat → Bool) :
  ∀ reqs rs, Decidable (Served sectors fault reqs rs)
  | _, [] => .isTrue trivial
  | reqs, _ :: rs =>
    have := decidableServed sectors fault (reqs + 1) rs
    inferInstanceAs (Decidable (_ ∧ _))

lemma served_append {sectors : Nat} {fault : Nat → Bool} {l l' : List Request} {reqs : Nat} :
  Served sectors fault reqs (l ++ l') ↔
    Served sectors fault reqs l ∧ Served sectors fault (reqs + l.length) l' := by
  induction l generalizing reqs with
  | nil => simp [Served]
  | cons r rs ih =>
    have hnext : reqs + (r :: rs).length = reqs + 1 + rs.length := by
      rw [length_cons]
      omega
    rw [cons_append, Served, Served, ih, hnext]
    exact and_assoc.symm

section
variable {α β : Type} {fs : Fs}

def NoneFails (x : LogM Fs Request α) (fs : Fs) : Prop :=
  Served fs.dev.sectors fs.dev.fault fs.dev.reqs (x fs).log

structure Numbers (x : LogM Fs Request α) (fs : Fs) : Prop where
  sectors : (x.erase fs).2.dev.sectors = fs.dev.sectors
  fault : (x.erase fs).2.dev.fault = fs.dev.fault
  reqs : (x.erase fs).2.dev.reqs = fs.dev.reqs + (x fs).log.length

lemma numbers_pure (a : α) : Numbers (pure a) fs := ⟨rfl, rfl, rfl⟩

variable {x : LogM Fs Request α} {n : Nat} {f : α → LogM Fs Request β}

lemma numbers_bind (hx : Numbers x fs)
  (hf : Numbers (f (x.erase fs).1) (x.erase fs).2) : Numbers (x >>= f) fs where
  sectors := hf.sectors.trans hx.sectors
  fault := hf.fault.trans hx.fault
  reqs := by
    have hlog : ((x >>= f) fs).log = (x fs).log ++ (f (x.erase fs).1 (x.erase fs).2).log := rfl
    rw [erase_bind, hf.reqs, hx.reqs, hlog, length_append, Nat.add_assoc]

lemma noneFails_pure (a : α) : NoneFails (pure a) fs := trivial

lemma noneFails_get_bind (f : Fs → LogM Fs Request α) :
  NoneFails (get >>= f) fs ↔ NoneFails (f fs) fs := Iff.rfl

lemma noneFails_modify_bind {g : Fs → Fs} (f : Unit → LogM Fs Request α)
  (hdev : (g fs).dev = fs.dev) : NoneFails (modify g >>= f) fs ↔ NoneFails (f ()) (g fs) := by
  rw [NoneFails, NoneFails, hdev]
  exact Iff.rfl

lemma noneFails_bind (hx : Numbers x fs) : NoneFails (x >>= f) fs ↔
    NoneFails x fs ∧ NoneFails (f (x.erase fs).1) (x.erase fs).2 := by
  have hlog : ((x >>= f) fs).log = (x fs).log ++ (f (x.erase fs).1 (x.erase fs).2).log := rfl
  rw [NoneFails, NoneFails, NoneFails, hlog, served_append, hx.sectors, hx.fault, hx.reqs]

lemma noneFails_one {lba : Nat} (hn : n ≠ 0) (hlog : (x fs).log = [⟨u32 (fs.ram.base + lba), n⟩]) :
  NoneFails x fs ↔ fs.refuses lba n = false := by
  rw [NoneFails, hlog]
  simp [Served, Fs.refuses, Device.refuses, hn]

lemma numbers_rdSectors (lba : Nat) (buf : Nat → UInt8) (hn : n ≠ 0) :
  Numbers (rdSectors lba buf n) fs := by
  have hcall : (rdSectors lba buf n).erase fs =
      (((Afs.rdSectors fs lba buf n).1, (Afs.rdSectors fs lba buf n).2.1),
        (Afs.rdSectors fs lba buf n).2.2) := rfl
  constructor <;> rw [hcall, rdSectors_eq fs lba buf hn] <;> split_ifs <;> rfl

lemma numbers_wrSectors (lba : Nat) (buf : Nat → UInt8) (hn : n ≠ 0) :
  Numbers (wrSectors lba buf n) fs := by
  constructor <;> rw [erase_wrSectors, wrSectors_eq fs lba buf hn] <;> split_ifs <;> rfl

lemma numbers_dirLoad : Numbers dirLoad fs := by
  refine numbers_bind (numbers_rdSectors _ _ one_ne_zero) ?_
  split <;> exact numbers_pure _

lemma noneFails_dirLoad : NoneFails dirLoad fs ↔ fs.refuses afsDirLba 1 = false := by
  rw [dirLoad, noneFails_bind (numbers_rdSectors _ _ one_ne_zero), noneFails_one one_ne_zero rfl,
    and_iff_left]
  split <;> exact noneFails_pure _

lemma numbers_dirFlush (d : Dir) : Numbers (dirFlush d) fs :=
  numbers_wrSectors _ _ one_ne_zero

lemma noneFails_dirFlush (d : Dir) :
  NoneFails (dirFlush d) fs ↔ fs.refuses afsDirLba 1 = false := noneFails_one one_ne_zero rfl

variable {lba k : Nat} {data : List UInt8}

section
variable (hk : k * chunkSize < data.length)
include hk

lemma numbers_writeChunk : Numbers (writeChunk lba data k) fs := by
  refine numbers_bind ⟨rfl, rfl, rfl⟩ (numbers_bind ⟨rfl, rfl, rfl⟩ ?_)
  exact numbers_wrSectors _ _ (chunk_sectors hk).1

lemma noneFails_writeChunk :
  NoneFails (writeChunk lba data k) fs ↔ (Afs.writeChunk fs lba data k).1 = true := by
  obtain ⟨hsec, hoff, _⟩ := chunk_sectors hk
  obtain ⟨slot, buf, _, hcall⟩ := writeChunk_eq fs lba hk
  have hone : NoneFails (writeChunk lba data k) fs ↔
      fs.refuses (u32 (lba + 8 * k)) (sectorsFor (chunkLen data.length k)) = false := by
    refine noneFails_one hsec ?_
    rw [← hoff]
    rfl
  have hsame : (fs.setBuf slot buf).refuses (u32 (lba + 8 * k))
      (sectorsFor (chunkLen data.length k)) =
      fs.refuses (u32 (lba + 8 * k)) (sectorsFor (chunkLen data.length k)) := rfl
  rw [hone, hcall, hsame]
  cases fs.refuses (u32 (lba + 8 * k)) (sectorsFor (chunkLen data.length k)) <;> simp

end

lemma writeChunks_requests (fs : Fs) (lba : Nat) (data : List UInt8) :
  ∀ n ≤ chunksOf data.length, Numbers (writeChunks lba data n) fs ∧
    (NoneFails (writeChunks lba data n) fs ↔ (Afs.writeChunks fs lba data n).1 = true) := by
  intro n
  induction n with
  | zero => exact fun _ => ⟨numbers_pure _, iff_of_true (noneFails_pure _) rfl⟩
  | succ n ih =>
    intro hn
    have hn' := lt_chunksOf_iff.mp (Nat.lt_of_succ_le hn)
    obtain ⟨hnumbers, hfails⟩ := ih (Nat.le_of_succ_le hn)
    rw [writeChunks, noneFails_bind hnumbers, hfails, erase_writeChunks, Afs.writeChunks]
    refine ⟨numbers_bind hnumbers ?_, ?_⟩
    · rw [erase_writeChunks]
      cases (Afs.writeChunks fs lba data n).1 with
      | false => exact numbers_pure _
      | true => exact numbers_writeChunk hn'
    rcases Afs.writeChunks fs lba data n with ⟨ok, fs₁⟩
    cases ok with
    | false => simp
    | true => simpa using noneFails_writeChunk hn'

lemma noneFails_commitFile (d : Dir) (name : List UInt8) (len : Nat) :
  NoneFails (commitFile d name len) fs ↔
    (findName d name ≠ none → fs.refuses afsDirLba 1 = false) := by
  rw [commitFile, findSlot_false]
  cases findName d name with
  | none => exact iff_of_true (noneFails_pure _) fun h => absurd rfl h
  | some i =>
    simp only [map_some]
    rw [noneFails_bind (numbers_dirFlush _), noneFails_dirFlush, and_iff_left]
    · simp
    · split <;> exact noneFails_pure _

lemma served_of_noneFails {name : List UInt8} (hargs : Writable fs data)
  (hserved : NoneFails (afsWrite (some name) (some data)) fs) : fs.refuses afsDirLba 1 = false ∧
    ∀ {lba d ram ok fs'},
      placeFile fs.ram fs.dir name (sectorsFor data.length) = (some (lba, d), ram) →
      Afs.writeChunks { fs.counted with ram := ram } lba data (chunksOf data.length) =
        (ok, fs') →
      ok = true ∧ (findName d name ≠ none → fs'.refuses afsDirLba 1 = false) := by
  simp only [afsWrite, noneFails_get_bind, afsWrite_guard, hargs, decide_true, Bool.not_true,
    Bool.false_eq_true, if_false] at hserved
  rw [noneFails_bind numbers_dirLoad, noneFails_dirLoad, erase_dirLoad, dirLoad_eq] at hserved
  obtain ⟨hload, hrest⟩ := hserved
  refine ⟨hload, fun {lba d ram ok fs'} hplace hloop => ?_⟩
  obtain ⟨hnumbers, hfails⟩ :=
    writeChunks_requests { fs.counted with ram := ram } lba data _ le_rfl
  have hram : fs.counted.ram = fs.ram := rfl
  simp only [hload, Bool.false_eq_true, if_false, noneFails_get_bind] at hrest
  rw [noneFails_modify_bind _ rfl, hram, ← sectorsFor, hplace] at hrest
  rw [noneFails_bind hnumbers, hfails, erase_writeChunks, hloop] at hrest
  obtain ⟨rfl, hcommit⟩ := hrest
  exact ⟨rfl, (noneFails_commitFile d name data.length).mp hcommit⟩

end
end Requests

lemma allocFromFreeList_same_iff (l : List Extent) {n : Nat} (hn : n ≠ 0) :
  (allocFromFreeList l n).2 = l ↔ ∀ e ∈ l, e.count < n := by
  rcases allocFromFreeList_cases l n with ⟨hsmall, hcall⟩ | ⟨e, others, hperm, hfits, _, hrest⟩
  · exact iff_of_true (by rw [hcall]) hsmall
  refine iff_of_false (fun hsame => ?_) fun hsmall => ?_
  · -- The blocks of the list: `n` of them are gone.
    have hall := (hperm.map Extent.count).sum_nat
    rw [hsame] at hrest
    rcases hrest with ⟨hall', hgone⟩ | ⟨_, hshrunk⟩
    · have := (hgone.map Extent.count).sum_nat
      simp only [map_cons, sum_cons] at hall
      omega
    have := (hshrunk.map Extent.count).sum_nat
    simp only [map_cons, sum_cons] at hall this
    omega
  have := hsmall e (hperm.mem_iff.mpr mem_cons_self)
  omega

section
variable {ram ram' : Ram} {n : Nat}

lemma allocSectors_none (hn : n ≠ 0) (hcall : allocSectors ram n = (none, ram')) :
  ram'.nextFreeLba = ram.nextFreeLba ∧
    (ram'.freeExtents = ram.freeExtents ↔ ∀ e ∈ ram.freeExtents, e.count < n) := by
  simp only [allocSectors] at hcall
  split_ifs at hcall
  · cases hcall
  · cases hcall
    exact ⟨rfl, allocFromFreeList_same_iff ram.freeExtents hn⟩
  · cases hcall

lemma allocSectors_some {lba : Nat} (hn : n ≠ 0) (hlt : n < 2 ^ 32)
  (hcall : allocSectors ram n = (some lba, ram')) :
  ¬ (ram'.nextFreeLba = ram.nextFreeLba ∧ ram'.freeExtents = ram.freeExtents) := by
  rintro ⟨hnext, hfree⟩
  simp only [allocSectors] at hcall
  split_ifs at hcall with hreused
  · cases hcall
    have hsmall := (allocFromFreeList_same_iff ram.freeExtents hn).mp hfree
    rcases allocFromFreeList_cases ram.freeExtents n with ⟨_, hcall⟩ | ⟨e, _, hperm, hfits, _⟩
    · exact hreused (by rw [hcall])
    · exact absurd (hsmall e (hperm.mem_iff.mpr mem_cons_self)) (by omega)
  · cases hcall
  cases hcall
  simp only [u32] at hnext
  omega

end

/-! ## What a refused write costs -/

/-- Two volumes agree on the directory and on the space that is left. -/
def SameSpace (fs fs' : Fs) : Prop :=
  fs'.dir = fs.dir ∧ fs'.ram.nextFreeLba = fs.ram.nextFreeLba ∧
    fs'.ram.freeExtents = fs.ram.freeExtents

/-- New sectors are asked for: the entry that was found has too few, or there is a free one. -/
structure Allocates (d : Dir) (found : Option (Fin afsMaxFiles)) (n : Nat) : Prop where
  grown : ∀ i, found = some i → nlbasOf (d i).size < n
  slot : found ≠ none ∨ ∃ i, (d i).startLba = 0

/-- The write takes sectors for nothing: they are found, but for a new file whose name does not
fit, or at sector 0, which marks the entry free; or the disk is full although an extent of the
list is large enough. -/
structure Wastes (fs : Fs) (found : Option (Fin afsMaxFiles)) (name : List UInt8) (n : Nat) :
    Prop where
  allocates : Allocates fs.dir found n
  lost : (∃ lba, (allocSectors fs.ram n).1 = some lba ∧
      (u32 lba = 0 ∨ found = none ∧ afsNameLen ≤ (cstr name).length)) ∨
    ((allocSectors fs.ram n).1 = none ∧ ∃ e ∈ fs.ram.freeExtents, n ≤ e.count)

section
variable {fs : Fs} {name : List UInt8} {n : Nat}

/-- New sectors are lost for a name that does not fit or at sector 0 only. -/
lemma placeFile_cases (ram : Ram) (d : Dir) (name : List UInt8) (n : Nat) :
  (¬ Allocates d (findName d name) n ∧ (placeFile ram d name n = (none, ram) ∨
      ∃ lba, placeFile ram d name n = (some (lba, d), ram) ∧ findName d name ≠ none)) ∨
  (Allocates d (findName d name) n ∧ ∃ dir : Nat → Dir, placeFile ram d name n =
      ((allocSectors ram n).1.map fun lba => (lba, dir lba), (allocSectors ram n).2) ∧
    ∀ lba, findName (dir lba) name = none →
      u32 lba = 0 ∨ findName d name = none ∧ afsNameLen ≤ (cstr name).length) := by
  cases hfound : findName d name with
  | some i =>
    by_cases hfits : n ≤ nlbasOf (d i).size
    · refine .inl ⟨fun h => ?_, .inr ⟨_, placeFile_inPlace hfound hfits, by simp⟩⟩
      exact absurd (h.grown i rfl) (not_lt.mpr hfits)
    refine .inr ⟨⟨fun j hj => ?_, .inl (by simp)⟩, _, placeFile_moved hfound hfits,
      fun lba hlost => .inl ?_⟩
    · obtain rfl : i = j := some.inj hj
      exact not_le.mp hfits
    by_contra hlive
    rw [findName_moved hfound hlive] at hlost
    cases hlost
  | none =>
    cases hfree : (List.finRange afsMaxFiles).find? fun i => (d i).startLba = 0 with
    | none =>
      refine .inl ⟨fun h => ?_, .inl (placeFile_full hfound hfree)⟩
      obtain ⟨i, hi⟩ := h.slot.resolve_left fun h => h rfl
      exact List.find?_eq_none.mp hfree i (mem_finRange i) (by simpa using hi)
    | some i =>
      refine .inr ⟨⟨fun j hj => ?_, .inr ⟨i, ?_⟩⟩, _, placeFile_created hfound hfree,
        fun lba hlost => ?_⟩
      · cases hj
      · simpa using List.find?_some hfree
      rw [findName_update fun j _ => findName_none hfound] at hlost
      by_cases hlive : u32 lba = 0
      · exact .inl hlive
      refine .inr ⟨rfl, not_lt.mp fun hshort => ?_⟩
      rw [if_pos ⟨hlive, (cstr_nameField_eq_iff name).mpr hshort⟩] at hlost
      cases hlost

lemma writeChunks_space (fs : Fs) (lba : Nat) (data : List UInt8) (n : Nat) :
  (writeChunks fs lba data n).2.ram.nextFreeLba = fs.ram.nextFreeLba ∧
    (writeChunks fs lba data n).2.ram.freeExtents = fs.ram.freeExtents := by
  induction n with
  | zero => exact ⟨rfl, rfl⟩
  | succ n ih =>
    rw [writeChunks]
    rcases hloop : writeChunks fs lba data n with ⟨ok, fs₁⟩
    rw [hloop] at ih
    cases ok with
    | false => exact ih
    | true => exact ih

variable {bytes : List UInt8}

/-- A refused write none of whose requests fails had no place for the data, or the entry was not
found again. -/
lemma afsWrite_refused (hargs : Writable fs bytes)
  (hserved : Requests.NoneFails (Requests.afsWrite (some name) (some bytes)) fs)
  (hnone : (afsWrite fs (some name) (some bytes)).1 = none) :
  (∃ ram, placeFile fs.ram fs.dir name (sectorsFor bytes.length) = (none, ram) ∧
    (afsWrite fs (some name) (some bytes)).2 = { fs.counted with ram := ram }) ∨
  ∃ lba d ram, placeFile fs.ram fs.dir name (sectorsFor bytes.length) = (some (lba, d), ram) ∧
    findName d name = none ∧
    (afsWrite fs (some name) (some bytes)).2.ram.nextFreeLba = ram.nextFreeLba ∧
    (afsWrite fs (some name) (some bytes)).2.ram.freeExtents = ram.freeExtents := by
  obtain ⟨hload, hrest⟩ := Requests.served_of_noneFails hargs hserved
  have hresult := afsWrite_result name hargs
  generalize afsWrite fs (some name) (some bytes) = result at hresult hnone
  obtain ⟨code, fs'⟩ := result
  cases hresult with
  | unread hrefused => exact absurd (hload.symm.trans hrefused) (by decide)
  | noRoom hplace => exact .inl ⟨_, hplace, rfl⟩
  | broken hplace hloop => exact absurd (hrest hplace hloop).1 (by decide)
  | @nameless lba d ram fs' hplace hloop hlost =>
    have hkept := writeChunks_space { fs.counted with ram := ram } lba bytes
      (chunksOf bytes.length)
    rw [hloop] at hkept
    exact .inr ⟨lba, d, ram, hplace, hlost, hkept⟩
  | @unflushed lba d ram fs' hplace hloop hrefused =>
    by_cases hlost : findName d name = none
    · have hkept := writeChunks_space { fs.counted with ram := ram } lba bytes
        (chunksOf bytes.length)
      rw [hloop] at hkept
      exact .inr ⟨lba, d, ram, hplace, hlost, hkept⟩
    · exact absurd ((hrest hplace hloop).2 hlost) (by rw [hrefused]; decide)
  | written => cases hnone

lemma placeFile_noRoom {ram : Ram} (hn : n ≠ 0)
  (hplace : placeFile fs.ram fs.dir name n = (none, ram)) :
  (ram.nextFreeLba = fs.ram.nextFreeLba ∧ ram.freeExtents = fs.ram.freeExtents) ↔
    ¬ Wastes fs (findName fs.dir name) name n := by
  rcases placeFile_cases fs.ram fs.dir name n with
    ⟨hkeeps, hcall | ⟨_, hcall, _⟩⟩ | ⟨hallocates, dir, hcall, _⟩
  · rw [hplace] at hcall
    cases hcall
    exact iff_of_true ⟨rfl, rfl⟩ fun h => hkeeps h.allocates
  · rw [hplace] at hcall
    cases hcall
  rcases halloc : allocSectors fs.ram n with ⟨got, ram'⟩
  rw [hplace, halloc] at hcall
  cases got with
  | some lba => cases hcall
  | none =>
    cases hcall
    obtain ⟨hnext, hfree⟩ := allocSectors_none hn halloc
    rw [and_iff_right hnext, hfree]
    constructor
    · rintro hsmall ⟨_, ⟨lba, hgot, _⟩ | ⟨_, e, he, hfits⟩⟩
      · rw [halloc] at hgot
        cases hgot
      · exact absurd (hsmall e he) (not_lt.mpr hfits)
    intro hkept e he
    by_contra hfits
    exact hkept ⟨hallocates, .inr ⟨by rw [halloc], e, he, not_lt.mp hfits⟩⟩

lemma placeFile_lost {lba : Nat} {d : Dir} {ram : Ram} (hn : n ≠ 0) (hlt : n < 2 ^ 32)
  (hplace : placeFile fs.ram fs.dir name n = (some (lba, d), ram))
  (hlost : findName d name = none) :
  ¬ (ram.nextFreeLba = fs.ram.nextFreeLba ∧ ram.freeExtents = fs.ram.freeExtents) ∧
    Wastes fs (findName fs.dir name) name n := by
  rcases placeFile_cases fs.ram fs.dir name n with
    ⟨_, hcall | ⟨_, hcall, hfound⟩⟩ | ⟨hallocates, dir, hcall, hwhy⟩
  · rw [hplace] at hcall
    cases hcall
  · rw [hplace] at hcall
    cases hcall
    exact absurd hlost hfound
  rcases halloc : allocSectors fs.ram n with ⟨got, ram'⟩
  rw [hplace, halloc] at hcall
  cases got with
  | none => cases hcall
  | some lba =>
    cases hcall
    exact ⟨allocSectors_some hn hlt halloc, hallocates,
      .inl ⟨lba, by rw [halloc], hwhy lba hlost⟩⟩

lemma sameSpace_refused_iff (hargs : Writable fs bytes)
  (hserved : Requests.NoneFails (Requests.afsWrite (some name) (some bytes)) fs)
  (hnone : (afsWrite fs (some name) (some bytes)).1 = none) :
  SameSpace fs (afsWrite fs (some name) (some bytes)).2 ↔
    ¬ Wastes fs (findName fs.dir name) name (sectorsFor bytes.length) := by
  have hn : sectorsFor bytes.length ≠ 0 ∧ sectorsFor bytes.length < 2 ^ 32 := by
    obtain ⟨_, hpos, hmax⟩ := hargs
    simp only [sectorsFor, sectSize, maxSize] at *
    omega
  rcases afsWrite_refused hargs hserved hnone with
    ⟨ram, hplace, hfs⟩ | ⟨lba, d, ram, hplace, hlost, hnext, hfree⟩
  · have hbase : ram.base = fs.counted.ram.base := by
      have hvolume := placeFile_volume fs.ram fs.dir name (sectorsFor bytes.length)
      rw [hplace] at hvolume
      exact congrArg (fun v => v.2.2.2) hvolume
    have hdir : (afsWrite fs (some name) (some bytes)).2.dir = fs.dir := by
      rw [hfs]
      exact Fs.dir_withRam hbase
    rw [SameSpace, and_iff_right hdir, hfs]
    exact placeFile_noRoom hn.1 hplace
  obtain ⟨hchanged, hwastes⟩ := placeFile_lost hn.1 hn.2 hplace hlost
  refine iff_of_false (fun h => hchanged ?_) (not_not.mpr hwastes)
  rw [← hnext, ← hfree]
  exact h.2

end

/-- Where the names of the directory are ended, a write that is refused with all its block requests
served leaves the directory, the bump pointer and the free list as they were exactly if its
arguments are refused at once or it wastes no sectors. -/
theorem refused_write_free_iff (fs : Fs) (name data : Option (List UInt8))
    (hmounted : fs.ram.mounted = true) (hends : NamesEnd fs.dir)
    (hserved : Requests.NoneFails (Requests.afsWrite name data) fs)
    (hnone : (afsWrite fs name data).1 = none) :
    SameSpace fs (afsWrite fs name data).2 ↔
      ∀ name' bytes, name = some name' → data = some bytes → bytes.length ≠ 0 →
        bytes.length ≤ maxSize →
          ¬ Wastes fs (findRaw (fs.sector afsDirLba) name') name' (sectorsFor bytes.length) := by
  have hlookup : ∀ name, findRaw (fs.sector afsDirLba) name = findName fs.dir name :=
    findRaw_eq_findName hends
  simp only [hlookup]
  by_cases hargs : ∃ name' bytes, name = some name' ∧ data = some bytes ∧ Writable fs bytes
  · obtain ⟨name, bytes, rfl, rfl, hargs⟩ := hargs
    rw [sameSpace_refused_iff hargs hserved hnone]
    constructor
    · rintro hkept _ _ ⟨rfl⟩ ⟨rfl⟩ _ _
      exact hkept
    · exact fun h => h name bytes rfl rfl hargs.2.1 hargs.2.2
  have hcall : afsWrite fs name data = (none, fs) := by
    rcases afsWrite_cases fs name data with hcall | ⟨name', bytes, hname, hdata, hok, _⟩
    · exact hcall
    · exact absurd ⟨name', bytes, hname, hdata, hok⟩ hargs
  refine iff_of_true ?_ fun name' bytes hname hdata hpos hmax =>
    absurd ⟨name', bytes, hname, hdata, hmounted, hpos, hmax⟩ hargs
  rw [hcall]
  exact ⟨rfl, rfl, rfl⟩

def fullDir : Dir := fun i =>
  ((Dirent.fresh [UInt8.ofNat (97 + i)]).setStart (2 + i)).setSize 1

def fullFs : Fs := (afsMount (sampleFs fullDir fun _ => false)).2

/-- A seventeenth file is refused. -/
theorem refused_write_free_full : fullFs.ram.mounted = true ∧
    Requests.NoneFails (Requests.afsWrite (some [120]) (some [1])) fullFs ∧
    (afsWrite fullFs (some [120]) (some [1])).1 = none ∧
    SameSpace fullFs (afsWrite fullFs (some [120]) (some [1])).2 := by
  have hmounted : fullFs.ram.mounted = true := by decide +kernel
  have hserved : Requests.NoneFails (Requests.afsWrite (some [120]) (some [1])) fullFs := by
    unfold Requests.NoneFails
    decide +kernel
  have hnone : (afsWrite fullFs (some [120]) (some [1])).1 = none := by decide +kernel
  have hends : NamesEnd fullFs.dir := by
    unfold NamesEnd
    decide +kernel
  refine ⟨hmounted, hserved, hnone,
    (refused_write_free_iff fullFs (some [120]) (some [1]) hmounted hends hserved hnone).mpr ?_⟩
  rintro _ _ ⟨rfl⟩ ⟨rfl⟩ _ _ hwastes
  have hslot : ¬ (findRaw (fullFs.sector afsDirLba) [120] ≠ none ∨
      ∃ i, (fullFs.dir i).startLba = 0) := by
    decide +kernel
  exact hslot hwastes.allocates.slot

/-- A new file of one byte whose name has 24 characters is refused on a freshly formatted
volume after its data was written, and its sector is gone. -/
theorem long_name_costs_sector : (afsFormat blankFs).2.ram.mounted = true ∧
    Requests.NoneFails (Requests.afsWrite (some (List.replicate 24 97)) (some [1]))
      (afsFormat blankFs).2 ∧
    (afsWrite (afsFormat blankFs).2 (some (List.replicate 24 97)) (some [1])).1 = none ∧
    (afsFormat blankFs).2.ram.nextFreeLba = 2 ∧
    (afsWrite (afsFormat blankFs).2 (some (List.replicate 24 97)) (some [1])).2.ram.nextFreeLba
      = 3 := by
  refine ⟨by decide +kernel, ?_, by decide +kernel, by decide +kernel, by decide +kernel⟩
  unfold Requests.NoneFails
  decide +kernel

end Aeos.Afs
