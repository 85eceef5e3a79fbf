/-
# Frame accounting

`Holds p₀ p F` says that `p` is the page allocator `p₀` with exactly the frames of `F`
taken from it.
-/

import Aeos.Mem.Pmm
import Mathlib.Order.Interval.Finset.Nat

namespace Aeos.Mem

open List Finset

structure Holds (p₀ p : Pmm) (F : Finset Nat) : Prop where
  bitmap : ∀ f, p.bitmap f = true ↔ p₀.bitmap f = true ∨ f ∈ F
  freeCount : p.freeCount + F.card = p₀.freeCount
  free : ∀ f ∈ F, f < totalFrames ∧ p₀.bitmap f = false

def Pmm.freeFrames (p : Pmm) : Finset Nat :=
  (Finset.range totalFrames).filter fun f => p.bitmap f = false

def Pmm.Wf (p : Pmm) : Prop := p.freeCount = p.freeFrames.card

variable {p : Pmm} {f : Nat}

lemma Pmm.mem_freeFrames : f ∈ p.freeFrames ↔ f < totalFrames ∧ p.bitmap f = false := by
  simp [freeFrames]

/-! ## Freeing -/

lemma pmmFreePage_of_used (hf : f < totalFrames) (hused : p.bitmap f = true) :
  pmmFreePage p (frameToPhys f) = p.give f 1 := by
  unfold pmmFreePage
  rw [physToFrame_frameToPhys hf]
  exact if_pos ⟨hf, hused⟩

lemma pmmFreePage_bitmap {g : Nat} (hg : g < totalFrames) (f : Nat) :
  (pmmFreePage p (frameToPhys g)).bitmap f = true ↔ p.bitmap f = true ∧ f ≠ g := by
  by_cases hused : p.bitmap g = true
  · rw [pmmFreePage_of_used hg hused, Pmm.give_bitmap]
    split_ifs with hf
    · have hfg : f = g := by omega
      simp [hfg]
    have hfg : f ≠ g := by omega
    simp [hfg]
  have hsame : pmmFreePage p (frameToPhys g) = p := by
    unfold pmmFreePage
    rw [physToFrame_frameToPhys hg]
    exact if_neg fun h => hused h.2
  rw [hsame]
  refine ⟨fun hf => ⟨hf, ?_⟩, fun hf => hf.1⟩
  rintro rfl
  exact hused hf

lemma foldl_freePage_bitmap {frames : List Nat} (hlt : ∀ g ∈ frames, g < totalFrames) :
  ∀ (p : Pmm) (f : Nat), ((frames.map frameToPhys).foldl pmmFreePage p).bitmap f = true ↔
    p.bitmap f = true ∧ f ∉ frames := by
  induction frames with
  | nil => simp
  | cons g frames ih =>
    intro p f
    rw [List.map_cons, foldl_cons, ih fun x hx => hlt x (List.mem_cons_of_mem _ hx),
      pmmFreePage_bitmap (hlt g List.mem_cons_self), List.mem_cons, not_or, and_assoc]

lemma Pmm.Wf.freePage (hwf : p.Wf) (addr : Nat) : (pmmFreePage p addr).Wf := by
  unfold pmmFreePage
  dsimp only
  split_ifs with hused
  · obtain ⟨hlt, hbit⟩ := hused
    have hset : (p.give (physToFrame addr) 1).freeFrames =
        insert (physToFrame addr) p.freeFrames := by
      ext f
      rw [mem_insert, Pmm.mem_freeFrames, Pmm.mem_freeFrames, Pmm.give_bitmap]
      split_ifs with hf
      · have hfg : f = physToFrame addr := by omega
        simp [hfg, hlt]
      have hfg : f ≠ physToFrame addr := by omega
      simp [hfg]
    have hnot : physToFrame addr ∉ p.freeFrames := fun hmem => by
      rw [(Pmm.mem_freeFrames.mp hmem).2] at hbit
      cases hbit
    unfold Pmm.Wf at *
    rw [hset, card_insert_of_notMem hnot, ← hwf]
    rfl
  · exact hwf

lemma Pmm.Wf.foldl_freePage (addrs : List Nat) :
  ∀ {p : Pmm}, p.Wf → (addrs.foldl pmmFreePage p).Wf := by
  induction addrs with
  | nil => exact fun hwf => hwf
  | cons a addrs ih => exact fun hwf => ih (hwf.freePage a)

lemma frameToPhys_add (f i : Nat) (hf : f + i < totalFrames) :
  (frameToPhys f + i * pageSize) % wordSize = frameToPhys (f + i) := by
  simp only [frameToPhys, totalFrames, ramSize, pageSize, ramStart, wordSize] at *
  omega

lemma Pmm.give_zero (p : Pmm) (f : Nat) : p.give f 0 = p := by
  obtain ⟨bitmap, count⟩ := p
  simp only [Pmm.give, Pmm.mk.injEq, Nat.add_zero, and_true]
  funext g
  simp only [fillRange]
  rw [if_neg (by omega)]

lemma Pmm.give_succ (p : Pmm) (f i : Nat) : (p.give f i).give (f + i) 1 = p.give f (i + 1) := by
  simp only [Pmm.give, Pmm.mk.injEq, Nat.add_assoc, and_true]
  funext g
  simp only [fillRange]
  split_ifs <;> first | rfl | omega

lemma pmmFreePages_of_used {n : Nat} (hle : f + n ≤ totalFrames)
  (hused : ∀ i < n, p.bitmap (f + i) = true) : pmmFreePages p (frameToPhys f) n = p.give f n := by
  induction n with
  | zero => exact (p.give_zero f).symm
  | succ n ih =>
    have hprev := ih (by omega) fun i hi => hused i (by omega)
    have hlast : (p.give f n).bitmap (f + n) = true := by
      rw [Pmm.give_bitmap, if_neg (by omega)]
      exact hused n (Nat.lt_succ_self n)
    rw [pmmFreePages, hprev, frameToPhys_add f n (by omega),
      pmmFreePage_of_used (by omega) hlast, p.give_succ]

lemma pmmAllocPage_wf (hwf : p.Wf) : (p.freeCount = 0 ∧ pmmAllocPage p = (0, p)) ∨
    (p.freeCount ≠ 0 ∧ ∃ f < totalFrames, p.bitmap f = false ∧ (∀ g < f, p.bitmap g = true) ∧
      pmmAllocPage p = (frameToPhys f, p.take f 1)) := by
  rcases pmmAllocPage_cases p with ⟨heq, hfail⟩ | ⟨f, hf, hfree, hbelow, hcount, heq⟩
  · refine .inl ⟨?_, heq⟩
    rcases hfail with hzero | hused
    · exact hzero
    rw [hwf, card_eq_zero, eq_empty_iff_forall_notMem]
    intro f hf
    obtain ⟨hlt, hfree⟩ := Pmm.mem_freeFrames.mp hf
    rw [hused f hlt] at hfree
    cases hfree
  · exact .inr ⟨hcount, f, hf, hfree, hbelow, heq⟩

/-! ## Accounting -/

namespace Holds

variable {p₀ p : Pmm} {F : Finset Nat} {f n : Nat}

lemma refl (p : Pmm) : Holds p p ∅ where
  bitmap := by simp
  freeCount := by simp
  free := by simp

lemma eq_of_empty (h : Holds p₀ p ∅) : p = p₀ := by
  obtain ⟨bitmap, count⟩ := p
  obtain ⟨bitmap₀, count₀⟩ := p₀
  have hcount : count = count₀ := by simpa using h.freeCount
  have hbitmap : bitmap = bitmap₀ := by
    funext f
    have hf := h.bitmap f
    simp only [notMem_empty, or_false] at hf
    exact Bool.eq_iff_iff.mpr hf
  rw [hcount, hbitmap]

section
variable (h : Holds p₀ p F)
include h

lemma used (hf : f ∈ F) : p.bitmap f = true := (h.bitmap f).mpr (.inr hf)

lemma notMem_of_free (hfree : p.bitmap f = false) : f ∉ F := fun hf => by
  rw [h.used hf] at hfree
  cases hfree

lemma free_of_free (hfree : p.bitmap f = false) : p₀.bitmap f = false := by
  have hf := (h.bitmap f).not
  simp only [hfree, Bool.false_eq_true, not_false_eq_true, true_iff, not_or] at hf
  simpa using hf.1

lemma take (hle : f + n ≤ totalFrames) (hfree : ∀ i < n, p.bitmap (f + i) = false)
  (hcount : n ≤ p.freeCount) : Holds p₀ (p.take f n) (F ∪ Finset.Ico f (f + n)) := by
  have hrun : ∀ g, f ≤ g → g < f + n → p.bitmap g = false := by
    intro g hlo hhi
    have hg := hfree (g - f) (by omega)
    rwa [Nat.add_sub_cancel' hlo] at hg
  have hdisjoint : Disjoint F (Finset.Ico f (f + n)) := by
    rw [Finset.disjoint_right]
    intro g hg
    obtain ⟨hlo, hhi⟩ := mem_Ico.mp hg
    exact h.notMem_of_free (hrun g hlo hhi)
  refine ⟨fun g => ?_, ?_, fun g hg => ?_⟩
  · rw [Pmm.take_bitmap, mem_union, mem_Ico]
    split_ifs with hg
    · simp [hg]
    rw [h.bitmap g]
    tauto
  · rw [card_union_of_disjoint hdisjoint, Nat.card_Ico]
    have := h.freeCount
    simp only [Pmm.take]
    omega
  rcases mem_union.mp hg with hg | hg
  · exact h.free g hg
  obtain ⟨hlo, hhi⟩ := mem_Ico.mp hg
  exact ⟨by omega, h.free_of_free (hrun g hlo hhi)⟩

lemma give (hsub : Finset.Ico f (f + n) ⊆ F) :
  Holds p₀ (p.give f n) (F \ Finset.Ico f (f + n)) := by
  refine ⟨fun g => ?_, ?_, fun g hg => h.free g (mem_sdiff.mp hg).1⟩
  · rw [Pmm.give_bitmap, mem_sdiff, mem_Ico]
    split_ifs with hg
    · have hfree := (h.free g (hsub (mem_Ico.mpr hg))).2
      simp [hfree, hg]
    rw [h.bitmap g]
    tauto
  have hcard := card_sdiff_add_card_eq_card hsub
  have := h.freeCount
  rw [Nat.card_Ico] at hcard
  simp only [Pmm.give]
  omega

lemma takePage (hf : f < totalFrames) (hfree : p.bitmap f = false) (hcount : p.freeCount ≠ 0) :
  Holds p₀ (p.take f 1) (insert f F) := by
  have htake := h.take (show f + 1 ≤ totalFrames from hf)
    (fun i hi => by obtain rfl : i = 0 := by omega
                    exact hfree) (Nat.pos_of_ne_zero hcount)
  rwa [Nat.Ico_succ_singleton, union_comm, ← Finset.insert_eq] at htake

lemma freePages (hsub : Finset.Ico f (f + n) ⊆ F) :
  Holds p₀ (pmmFreePages p (frameToPhys f) n) (F \ Finset.Ico f (f + n)) := by
  rcases Nat.eq_zero_or_pos n with rfl | hpos
  · simpa [pmmFreePages] using h
  have hmem : ∀ i < n, f + i ∈ F := fun i hi => hsub (mem_Ico.mpr (by omega))
  have hlast := (h.free _ (hmem (n - 1) (by omega))).1
  rw [pmmFreePages_of_used (by omega) fun i hi => h.used (hmem i hi)]
  exact h.give hsub

lemma freePage (hf : f ∈ F) : Holds p₀ (pmmFreePage p (frameToPhys f)) (F.erase f) := by
  have hsub : Finset.Ico f (f + 1) ⊆ F := by simpa [Nat.Ico_succ_singleton] using hf
  rw [pmmFreePage_of_used (h.free f hf).1 (h.used hf)]
  have hgive := h.give hsub
  rwa [Nat.Ico_succ_singleton, sdiff_singleton_eq_erase] at hgive

end

lemma freeTables {frames : List Nat} (hnodup : frames.Nodup) :
  ∀ {p : Pmm} {F : Finset Nat}, Holds p₀ p F → frames.toFinset ⊆ F →
    Holds p₀ ((frames.map frameToPhys).foldl pmmFreePage p) (F \ frames.toFinset) := by
  induction frames with
  | nil =>
    intro p F h _
    simpa using h
  | cons g frames ih =>
    intro p F h hsub
    obtain ⟨hg, hnodup⟩ := nodup_cons.mp hnodup
    have hmem : g ∈ F := hsub (by simp)
    have hrest : frames.toFinset ⊆ F.erase g := by
      intro x hx
      refine mem_erase.mpr ⟨?_, hsub (by simp_all)⟩
      rintro rfl
      exact hg (mem_toFinset.mp hx)
    have hdone := ih hnodup (h.freePage hmem) hrest
    have hset : F \ (g :: frames).toFinset = F.erase g \ frames.toFinset := by
      ext x
      simp only [mem_sdiff, toFinset_cons, mem_insert, mem_erase]
      tauto
    rw [hset]
    exact hdone

lemma wf (h : Holds p₀ p F) (hwf : p₀.Wf) : p.Wf := by
  have hsub : F ⊆ p₀.freeFrames := fun f hf => Pmm.mem_freeFrames.mpr (h.free f hf)
  have hset : p.freeFrames = p₀.freeFrames \ F := by
    ext f
    rw [mem_sdiff, Pmm.mem_freeFrames, Pmm.mem_freeFrames, ← Bool.not_eq_true, h.bitmap f,
      ← Bool.not_eq_true]
    tauto
  have hcard := card_sdiff_add_card_eq_card hsub
  have := h.freeCount
  unfold Pmm.Wf at *
  rw [hset]
  omega

end Holds

lemma pmmInit_wf : pmmInit.Wf := by
  have hset : pmmInit.freeFrames = Finset.Ico reserveEndFrame totalFrames := by
    ext f
    rw [Pmm.mem_freeFrames, mem_Ico, and_comm]
    refine and_congr_left fun hf => ?_
    rw [← Bool.not_eq_true, pmmInit_bitmap f hf, not_lt]
  have hsize : totalFrames - reserveEndFrame = bootFrames := by decide
  unfold Pmm.Wf
  rw [hset, Nat.card_Ico, pmmInit_freeCount, hsize]

end Aeos.Mem
