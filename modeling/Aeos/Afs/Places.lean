/-
# Where data may go

A property of extents that holds of the files and of the free list, and that parts of an
extent inherit, holds of every extent the allocator hands out; the one exception is what
comes from the bump pointer, which is asked for separately.
-/

import Aeos.Afs.Calls

namespace Aeos.Afs

open Lib List Option Function

lemma u32_le (n : Nat) : u32 n ≤ n := Nat.mod_le _ _

/-- A write of `n` sectors takes them from the bump pointer: the file has fewer, or is a new one and
has an entry, no free extent is large enough, and the check of the end passes. -/
def Bumps (fs : Fs) (name : List UInt8) (n : Nat) : Prop :=
  (findName fs.dir name ≠ none ∨ ∃ i, ¬ (fs.dir i).Live) ∧
    (∀ i, findName fs.dir name = some i → nlbasOf (fs.dir i).size < n) ∧
    (∀ e ∈ fs.ram.freeExtents, e.count < n) ∧
    u32 (fs.ram.nextFreeLba + n) ≤ fs.ram.totalSectors

structure Allowed (P : Extent → Prop) : Prop where
  part : ∀ {e part}, P e → e.start ≤ part.start → part.stop ≤ e.stop → P part
  start : ∀ {e}, P e → 2 ≤ e.start
  stop : ∀ {e}, P e → e.stop < 2 ^ 32

section
variable {P : Extent → Prop} {fs : Fs} {n : Nat}

lemma Allowed.reused (hP : Allowed P) {e : Dirent} (he : P e.extent)
  (hn : n ≤ nlbasOf e.size) : P ⟨e.startLba, n⟩ :=
  hP.part he le_rfl (Nat.add_le_add_left (hn.trans (Nat.div_le_div_right (u32_le _))) _)

lemma allocSectors_allowed (hP : Allowed P) {ram : Ram} (hfree : ∀ e ∈ ram.freeExtents, P e)
  (hbump : (∀ e ∈ ram.freeExtents, e.count < n) →
    u32 (ram.nextFreeLba + n) ≤ ram.totalSectors → P ⟨ram.nextFreeLba, n⟩) :
  (∀ e ∈ (allocSectors ram n).2.freeExtents, P e) ∧
  ram.nextFreeLba ≤ (allocSectors ram n).2.nextFreeLba ∧
  ∀ lba, (allocSectors ram n).1 = some lba → P ⟨lba, n⟩ := by
  rcases allocSectors_inversion (n := n) (fun e he => hP.start (hfree e he))
      (fun e he => hP.stop (hfree e he)) with
    ⟨_, _, hcall⟩ | ⟨hsmall, hfits, hcall⟩ | ⟨e, others, l, hperm, hn, hcall, hrest⟩ <;> rw [hcall]
  · exact ⟨hfree, le_rfl, fun lba hlba => by cases hlba⟩
  · have hnew := hbump hsmall hfits
    refine ⟨hfree, ?_, fun lba hlba => ?_⟩
    · have hsum : u32 (ram.nextFreeLba + n) = ram.nextFreeLba + n := u32_of_lt (hP.stop hnew)
      rw [hsum]
      exact Nat.le_add_right _ _
    obtain rfl : ram.nextFreeLba = lba := some.inj hlba
    exact hnew
  have hkept : ∀ f ∈ others, P f :=
    fun f hf => hfree f (hperm.mem_iff.mpr (mem_cons_of_mem _ hf))
  have he : P e := hfree e (hperm.mem_iff.mpr mem_cons_self)
  refine ⟨fun f hf => ?_, le_rfl, fun lba hlba => ?_⟩
  · rcases hrest with ⟨_, hl⟩ | ⟨_, hl⟩
    · exact hkept f (hl.mem_iff.mp hf)
    rcases mem_cons.mp (hl.mem_iff.mp hf) with rfl | hf
    · exact hP.part he (Nat.le_add_right _ _) (Extent.stop_back hn).le
    · exact hkept f hf
  obtain rfl : e.start = lba := some.inj hlba
  exact hP.part he le_rfl (Nat.add_le_add_left hn _)

/-- What a write chooses: sectors with the property, and the entry it finds again, its own or
nobody's before. -/
structure Placed (P : Extent → Prop) (d : Dir) (name : List UInt8) (n lba : Nat) (d' : Dir) :
    Prop where
  sectors : P ⟨lba, n⟩
  start : ∀ j, findName d' name = some j → (d' j).startLba = u32 lba
  only : ∀ j, findName d' name = some j → ∀ e, update d' j e = update d j e
  owner : ∀ j, findName d' name = some j → (d j).Live → findName d name = some j

lemma Placed.extent_eq {d d' : Dir} {name : List UInt8} {len lba : Nat}
  (h : Placed P d name (sectorsFor len) lba d') {j : Fin afsMaxFiles}
  (hfound : findName d' name = some j) (hstop : lba + sectorsFor len < 2 ^ 32)
  (hlen : len ≤ maxSize) : ((d' j).setSize len).extent = ⟨lba, sectorsFor len⟩ := by
  have hlba := (h.start j hfound).trans (u32_of_lt (by omega))
  rw [Dirent.extent, size_setSize _ hlen]
  exact congrArg (Extent.mk · (sectorsFor len)) hlba

lemma placeFile_allowed (hP : Allowed P) (name : List UInt8) (hfree : ∀ e ∈ fs.ram.freeExtents, P e)
  (hfile : ∀ i, findName fs.dir name = some i → P (fs.dir i).extent)
  (hbump : Bumps fs name n → P ⟨fs.ram.nextFreeLba, n⟩) :
  (∀ e ∈ (placeFile fs.ram fs.dir name n).2.freeExtents, P e) ∧
  fs.ram.nextFreeLba ≤ (placeFile fs.ram fs.dir name n).2.nextFreeLba ∧
  ∀ lba d, (placeFile fs.ram fs.dir name n).1 = some (lba, d) → Placed P fs.dir name n lba d := by
  cases hfound : findName fs.dir name with
  | some i =>
    by_cases hn : n ≤ nlbasOf (fs.dir i).size
    · rw [placeFile_inPlace hfound hn]
      refine ⟨hfree, le_rfl, fun lba d heq => ?_⟩
      obtain ⟨rfl, rfl⟩ := Prod.mk.inj (some.inj heq)
      have hstart := (u32_of_lt (fs.dir i).startLba_lt).symm
      refine ⟨hP.reused (hfile i hfound) hn, fun j hj => ?_, fun _ _ _ => rfl, fun _ hj _ => hj⟩
      obtain rfl : i = j := some.inj (hfound.symm.trans hj)
      exact hstart
    obtain ⟨hfree', hnext, hgot⟩ := allocSectors_allowed hP hfree fun hsmall hfits =>
      hbump ⟨.inl (by simp [hfound]), fun j hj => by
        obtain rfl : i = j := some.inj (hfound.symm.trans hj)
        exact not_le.mp hn, hsmall, hfits⟩
    rw [placeFile_moved hfound hn]
    refine ⟨hfree', hnext, fun lba' d heq => ?_⟩
    obtain ⟨lba, hlba, heq⟩ := map_eq_some_iff.mp heq
    obtain ⟨rfl, rfl⟩ := Prod.mk.inj heq
    have hnew := hgot lba hlba
    have hlive : ((fs.dir i).setStart lba).Live := by
      apply live_setStart
      · exact Nat.ne_of_gt (Nat.lt_of_lt_of_le (by decide) (hP.start hnew))
      · exact Nat.lt_of_le_of_lt (Nat.le_add_right _ _) (hP.stop hnew)
    have hagain := findName_moved hfound hlive
    refine ⟨hnew, fun j hj => ?_, fun j hj e => ?_, fun j hj _ => ?_⟩
    all_goals obtain rfl : i = j := some.inj (hagain.symm.trans hj)
    · rw [update_self]
      rfl
    · exact update_idem _ _ _
    · exact hfound
  | none =>
    cases hslot : (List.finRange afsMaxFiles).find? fun i => (fs.dir i).startLba = 0 with
    | none =>
      rw [placeFile_full hfound hslot]
      exact ⟨hfree, le_rfl, fun lba d heq => by cases heq⟩
    | some i =>
      have hdead : (fs.dir i).startLba = 0 := by simpa using List.find?_some hslot
      obtain ⟨hfree', hnext, hgot⟩ := allocSectors_allowed hP hfree fun hsmall hfits =>
        hbump ⟨.inr ⟨i, not_not.mpr hdead⟩, fun j hj => by simp [hfound] at hj, hsmall, hfits⟩
      rw [placeFile_created hfound hslot]
      refine ⟨hfree', hnext, fun lba' d heq => ?_⟩
      obtain ⟨lba, hlba, heq⟩ := map_eq_some_iff.mp heq
      obtain ⟨rfl, rfl⟩ := Prod.mk.inj heq
      have hagain : ∀ j, findName (update fs.dir i
          ((Dirent.fresh name).setStart lba)) name = some j → i = j := by
        intro j hj
        rw [findName_update fun j _ hj => findName_none hfound hj] at hj
        split_ifs at hj
        exact some.inj hj
      refine ⟨hgot lba hlba, fun j hj => ?_, fun j hj e => ?_, fun j hj hlive => ?_⟩
      all_goals obtain rfl := hagain j hj
      · rw [update_self]
        rfl
      · exact update_idem _ _ _
      · exact absurd hdead hlive

def Fs.withFree (fs : Fs) (free : List Extent) : Fs :=
  { fs with ram := { fs.ram with freeExtents := free } }

inductive Deleted (P : Extent → Prop) (fs : Fs) (name : List UInt8) : Fs → Prop
  | same : Deleted P fs name fs.counted
  | unflushed {free : List Extent} (hfree : ∀ e ∈ free, P e) :
      Deleted P fs name (fs.counted.withFree free).counted
  | cleared {free : List Extent} {i : Fin afsMaxFiles} (hfree : ∀ e ∈ free, P e)
      (hfound : findName fs.dir name = some i) :
      Deleted P fs name ((fs.counted.withFree free).stored afsDirLba
        (dirEncode (update fs.dir i Dirent.zero)) 1)

lemma afsDelete_allowed (hP : Allowed P) (hmounted : fs.ram.mounted = true)
  (name : List UInt8) (hfree : ∀ e ∈ fs.ram.freeExtents, P e)
  (hfile : ∀ i, findName fs.dir name = some i → P (fs.dir i).extent) :
  Deleted P fs name (afsDelete fs name).2 := by
  simp only [afsDelete, hmounted, Bool.not_true, Bool.false_eq_true, if_false, dirLoad_eq,
    findSlot_false]
  split_ifs
  · exact .same
  dsimp only
  cases hfound : findName fs.dir name with
  | none => exact .same
  | some i =>
    -- What joins the free list is part of the file.
    have hfree' : ∀ e ∈ (if (fs.dir i).startLba ≠ 0 ∧ 0 < nlbasOf (fs.dir i).size then
        addToFreeList fs.counted.ram.freeExtents (fs.dir i).startLba
          (nlbasOf (fs.dir i).size) else fs.counted.ram.freeExtents), P e := by
      intro e he
      split_ifs at he
      · unfold addToFreeList at he
        split_ifs at he
        · exact hfree e he
        rcases mem_append.mp he with he | he
        · exact hfree e he
        rw [mem_singleton.mp he]
        exact hP.reused (hfile i hfound) le_rfl
      · exact hfree e he
    simp only [map_some, dirFlush_eq]
    generalize (if (fs.dir i).startLba ≠ 0 ∧ 0 < nlbasOf (fs.dir i).size then
        addToFreeList fs.counted.ram.freeExtents (fs.dir i).startLba
          (nlbasOf (fs.dir i).size) else fs.counted.ram.freeExtents) = free at hfree' ⊢
    split_ifs
    · exact .unflushed hfree'
    · exact .cleared hfree' hfound

end
end Aeos.Afs
