/-
# The range a frame allocator serves

Single allocations from an exact allocator return every free frame once and then fail.
-/

import Aeos.Frame.Exact

namespace Aeos.Frame

open Lib FrameAllocator List Finset

def address (frame : Nat) : Nat := frame * pageSize % usizeBound

namespace FrameAllocator

def afterAllocs (a : FrameAllocator) (k : Nat) : FrameAllocator :=
  (fun a => a.allocFrame.2)^[k] a

/-- The frames that repeated calls of `alloc_frame` return. -/
def served (a : FrameAllocator) : Set Nat :=
  { f | ∃ k, (a.afterAllocs k).allocFrame.1 = .ok f }

end FrameAllocator

section
variable {a : FrameAllocator} {f g : Nat}

section
variable (h : Exact a)
include h

lemma isFree_take_singleton {top : Nat} :
  (({ a with freeTop := top } : FrameAllocator).take [f]).isFree g = true ↔
    g ≠ f ∧ a.isFree g = true := by
  have hwords : (({ a with freeTop := top } : FrameAllocator).take [f]).words ≤ bitmapWords :=
    take_words.trans_le h.words
  have hbit : (({ a with freeTop := top } : FrameAllocator).take [f]).bit g =
      (!decide (g ∈ [f]) && a.bit g) := take_bit g
  have htotal : (({ a with freeTop := top } : FrameAllocator).take [f]).totalFrames =
      a.totalFrames := (take_fields _ [f]).1
  rw [isFree_iff hwords, isFree_iff h.words, hbit, htotal]
  simp only [List.mem_singleton, Bool.and_eq_true, Bool.not_eq_true', decide_eq_false_iff_not]
  tauto

lemma allocFrame_step : (∀ g, a.isFree g = false) ∧ a.allocFrame = (.error (.err .outOfFrames), a) ∨
    ∃ f, a.allocFrame.1 = .ok f ∧ a.isFree f = true ∧
      ∀ g, a.allocFrame.2.isFree g = true ↔ g ≠ f ∧ a.isFree g = true := by
  rcases allocFrame_cases h with hempty | ⟨f, top, hfree, _, _, heq⟩
  · exact .inl hempty
  refine .inr ⟨f, congrArg Prod.fst heq, hfree, fun g => ?_⟩
  rw [heq]
  exact isFree_take_singleton h

lemma exact_afterAllocs (k : Nat) : Exact (a.afterAllocs k) := by
  induction k generalizing a with
  | zero => exact h
  | succ k ih => exact ih h.allocFrame

lemma isFree_of_afterAllocs {k : Nat} (hfree : (a.afterAllocs k).isFree f = true) :
    a.isFree f = true := by
  induction k generalizing a with
  | zero => exact hfree
  | succ k ih =>
    have hnext := ih h.allocFrame hfree
    rcases allocFrame_step h with ⟨_, heq⟩ | ⟨_, _, _, hothers⟩
    · rwa [heq] at hnext
    · exact ((hothers f).mp hnext).2

lemma isFree_of_served (hserved : f ∈ a.served) : a.isFree f = true := by
  obtain ⟨k, hk⟩ := hserved
  apply isFree_of_afterAllocs h (k := k)
  rcases allocFrame_step (exact_afterAllocs h k) with ⟨_, heq⟩ | ⟨g, hg, hfree, _⟩
  · rw [heq] at hk
    cases hk
  obtain rfl : g = f := Except.ok.inj (hg.symm.trans hk)
  exact hfree

end

lemma served_of_served_next (hserved : f ∈ a.allocFrame.2.served) : f ∈ a.served := by
  obtain ⟨k, hk⟩ := hserved
  exact ⟨k + 1, hk⟩

lemma served_of_isFree (h : Exact a) (hfree : a.isFree f = true) : f ∈ a.served := by
  induction hcard : a.freeSet.card generalizing a with
  | zero =>
    have hmem := (mem_freeSet h.words).mpr ((isFree_iff h.words).mp hfree)
    rw [card_eq_zero.mp hcard] at hmem
    exact absurd hmem (notMem_empty f)
  | succ n ih =>
    rcases allocFrame_step h with ⟨hempty, _⟩ | ⟨g, hg, hgfree, hothers⟩
    · rw [hempty f] at hfree
      cases hfree
    by_cases hfg : f = g
    · exact ⟨0, hfg ▸ hg⟩
    apply served_of_served_next
    apply ih h.allocFrame ((hothers f).mpr ⟨hfg, hfree⟩)
    have hset : a.allocFrame.2.freeSet = a.freeSet.erase g := by
      ext k
      rw [mem_erase, mem_freeSet h.allocFrame.words, mem_freeSet h.words,
        ← isFree_iff h.allocFrame.words, ← isFree_iff h.words, hothers k]
    have hmem := (mem_freeSet h.words).mpr ((isFree_iff h.words).mp hgfree)
    rw [hset, card_erase_of_mem hmem, hcard, Nat.add_sub_cancel]

/-- Repeated allocation serves the free frames, all of them and nothing else. -/
lemma mem_served (h : Exact a) : f ∈ a.served ↔ a.isFree f = true :=
  ⟨isFree_of_served h, served_of_isFree h⟩

end

/-! ## After `init` -/

lemma bit_foldl_release (frames : List Nat) : ∀ (a : FrameAllocator) (g : Nat),
  (frames.foldl release a).bit g = (decide (g ∈ frames) || a.bit g) ∧
    (frames.foldl release a).totalFrames = a.totalFrames := by
  induction frames with
  | nil => simp
  | cons f frames ih =>
    intro a g
    obtain ⟨hbit, htotal⟩ := ih (a.release f) g
    rw [foldl_cons, hbit, htotal, release_bit, (release_fields a f).1]
    refine ⟨?_, rfl⟩
    rw [Bool.eq_iff_iff]
    simp only [Bool.or_eq_true, decide_eq_true_eq, List.mem_cons]
    tauto

section
variable {before : FrameAllocator} {physBase physSize reservedEnd f : Nat}

section
variable (hsize : physSize / pageSize ≤ 64 * bitmapWords)
include hsize

lemma init_ok : (before.init physBase physSize reservedEnd).1 = .ok () := by
  rcases init_cases before physBase physSize reservedEnd with ⟨hmany, _⟩ | ⟨_, heq⟩
  · omega
  · rw [heq]

lemma isFree_init : (before.init physBase physSize reservedEnd).2.isFree f = true ↔
    firstFree reservedEnd ≤ f ∧ f < physSize / pageSize := by
  have hexact : Exact (before.init physBase physSize reservedEnd).2 := exact_init (init_ok hsize)
  rw [isFree_iff hexact.words]
  rcases init_cases before physBase physSize reservedEnd with ⟨hmany, _⟩ | ⟨_, heq⟩
  · omega
  obtain ⟨hbit, htotal⟩ := bit_foldl_release (List.range' (firstFree reservedEnd)
    (physSize / pageSize - firstFree reservedEnd)) (cleared before physBase physSize) f
  have hframes : (cleared before physBase physSize).totalFrames = physSize / pageSize := rfl
  rw [heq, hbit, htotal, hframes, Bool.or_eq_true, decide_eq_true_eq, mem_range'_1]
  constructor
  · rintro ⟨hlt, hin | hold⟩
    · omega
    rw [cleared_bit (word_lt hlt)] at hold
    cases hold
  rintro ⟨hfirst, hlt⟩
  exact ⟨hlt, .inl (by omega)⟩

end

lemma firstFree_of_aligned {r : Nat} (hr : r * pageSize < usizeBound) :
  firstFree (r * pageSize) = max r 1 := by
  have hwhole : r * pageSize + pageSize ≤ usizeBound := by
    rw [pageSize, usizeBound] at *
    omega
  rw [firstFree, Nat.mod_eq_of_lt (by rw [pageSize] at *; omega)]
  congr 1
  rw [pageSize]
  omega

lemma served_addresses (hsize : physSize / pageSize ≤ 64 * bitmapWords) :
  address '' (before.init physBase physSize reservedEnd).2.served =
    { p | ∃ f, firstFree reservedEnd ≤ f ∧ f < physSize / pageSize ∧ p = f * pageSize } := by
  have hexact : Exact (before.init physBase physSize reservedEnd).2 := exact_init (init_ok hsize)
  have haddress : ∀ f < physSize / pageSize, address f = f * pageSize := by
    intro f hf
    apply Nat.mod_eq_of_lt
    rw [bitmapWords] at hsize
    rw [pageSize, usizeBound] at *
    omega
  ext p
  constructor
  · rintro ⟨f, hserved, rfl⟩
    obtain ⟨hfirst, hlt⟩ := (isFree_init hsize).mp ((mem_served hexact).mp hserved)
    exact ⟨f, hfirst, hlt, haddress f hlt⟩
  rintro ⟨f, hfirst, hlt, rfl⟩
  exact ⟨f, (mem_served hexact).mpr ((isFree_init hsize).mpr ⟨hfirst, hlt⟩), haddress f hlt⟩

end

/-- The page addresses of the unreserved memory. -/
def unreserved (physBase physSize reservedEnd : Nat) : Set Nat :=
  { p | pageSize ∣ p ∧ reservedEnd ≤ p ∧ p < physBase + physSize }

/-- The frames served against the frames of the unreserved memory, in page numbers. -/
lemma frames_eq_unreserved_iff {b s r : Nat} (hhigh : r ≤ b + s) :
  { p | ∃ f, max r 1 ≤ f ∧ f < s ∧ p = f * pageSize } =
      unreserved (b * pageSize) (s * pageSize) (r * pageSize) ↔ r = b + s ∨ b = 0 ∧ r ≠ 0 := by
  have hmem : ∀ f, f * pageSize ∈ unreserved (b * pageSize) (s * pageSize) (r * pageSize) ↔
      r ≤ f ∧ f < b + s := by
    intro f
    have hpage : 0 < pageSize := by decide
    show pageSize ∣ f * pageSize ∧ _ ∧ _ ↔ _
    rw [← Nat.add_mul, Nat.mul_le_mul_right_iff hpage, Nat.mul_lt_mul_right hpage]
    exact and_iff_right (Nat.dvd_mul_left pageSize f)
  have hserved : ∀ f, f * pageSize ∈ { p | ∃ f, max r 1 ≤ f ∧ f < s ∧ p = f * pageSize } ↔
      max r 1 ≤ f ∧ f < s := by
    intro f
    constructor
    · rintro ⟨g, hfirst, hlt, heq⟩
      obtain rfl : f = g := Nat.eq_of_mul_eq_mul_right (by decide) heq
      exact ⟨hfirst, hlt⟩
    · exact fun ⟨hfirst, hlt⟩ => ⟨f, hfirst, hlt, rfl⟩
  constructor
  · intro heq
    by_cases hall : r = b + s
    · exact .inl hall
    -- The last page must be below the size, and the first one must not be page zero.
    have hlast := (hmem (b + s - 1)).mpr (by omega)
    have hfirst := (hmem r).mpr (by omega)
    rw [← heq, hserved] at hlast hfirst
    omega
  intro hcond
  ext p
  constructor
  · rintro ⟨f, hfirst, hlt, rfl⟩
    apply (hmem f).mpr
    omega
  intro hp
  obtain ⟨f, rfl⟩ := exists_eq_mul_left_of_dvd hp.1
  have hf := (hmem f).mp hp
  apply (hserved f).mpr
  omega

/-- The frames that repeated `alloc_frame` calls return after `init` are those from `reserved_end`
to the end of memory exactly if everything is reserved, or memory starts at address zero and
something is reserved. -/
theorem serves_unreserved_iff (before : FrameAllocator) {physBase physSize reservedEnd : Nat}
  (hbase : pageSize ∣ physBase) (hsize : pageSize ∣ physSize) (hend : pageSize ∣ reservedEnd)
  (hhigh : reservedEnd ≤ physBase + physSize) (hword : reservedEnd < usizeBound)
  (hsupported : physSize / pageSize ≤ 64 * bitmapWords) :
  address '' (before.init physBase physSize reservedEnd).2.served =
      unreserved physBase physSize reservedEnd ↔
    reservedEnd = physBase + physSize ∨ physBase = 0 ∧ reservedEnd ≠ 0 := by
  rw [served_addresses hsupported]
  obtain ⟨b, rfl⟩ := exists_eq_mul_left_of_dvd hbase
  obtain ⟨s, rfl⟩ := exists_eq_mul_left_of_dvd hsize
  obtain ⟨r, rfl⟩ := exists_eq_mul_left_of_dvd hend
  have hpage : 0 < pageSize := by decide
  rw [← Nat.add_mul, Nat.mul_le_mul_right_iff hpage] at hhigh
  rw [firstFree_of_aligned hword, Nat.mul_div_cancel s hpage, frames_eq_unreserved_iff hhigh,
    ← Nat.add_mul, Nat.mul_left_inj hpage.ne']
  simp only [Nat.mul_eq_zero, hpage.ne', or_false, ne_eq]

/-- Sixteen megabytes from address zero, of which the first is reserved. -/
theorem serves_unreserved_low : address '' (new.init 0 (16 * 1024 * 1024) (1024 * 1024)).2.served =
    unreserved 0 (16 * 1024 * 1024) (1024 * 1024) :=
  (serves_unreserved_iff new (by decide) (by decide) (by decide) (by decide) (by decide)
    (by decide)).mpr (.inr (by decide))

/-- With the memory map of `Kernel::init` not one frame is served, although there are
pages above `reserved_end`. -/
theorem kernel_memory_not_served :
  let a := (new.init 0x40000000 (128 * 1024 * 1024) (0x40000000 + 18 * 1024 * 1024)).2
  a.served = ∅ ∧
    address '' a.served ≠
      unreserved 0x40000000 (128 * 1024 * 1024) (0x40000000 + 18 * 1024 * 1024) := by
  intro a
  have hsize : 128 * 1024 * 1024 / pageSize ≤ 64 * bitmapWords := by decide
  have hfirst : 128 * 1024 * 1024 / pageSize ≤ firstFree (0x40000000 + 18 * 1024 * 1024) := by
    decide
  have hnone : a.served = ∅ := by
    ext f
    rw [mem_served (exact_init (init_ok hsize)), isFree_init hsize, Set.mem_empty_iff_false,
      iff_false]
    rintro ⟨hlow, hhigh⟩
    exact absurd (hfirst.trans hlow) (not_le.mpr hhigh)
  refine ⟨hnone, fun heq => ?_⟩
  rw [hnone, Set.image_empty] at heq
  have hpage : 0x40000000 + 18 * 1024 * 1024 ∈
      unreserved 0x40000000 (128 * 1024 * 1024) (0x40000000 + 18 * 1024 * 1024) :=
    ⟨by decide, by decide, by decide⟩
  rw [← heq] at hpage
  exact hpage

end Aeos.Frame
