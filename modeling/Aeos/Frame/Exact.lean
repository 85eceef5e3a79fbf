/-
# Single frames

The invariant that ties the three representations of the Rust frame allocator together:
the counter counts the free frames, and the stack lists free frames, each at most once.
-/

import Aeos.Frame.Model
import Aeos.Lib.Machine
import Mathlib.Data.Finset.Card

namespace Aeos.Frame

open Lib FrameAllocator Function

def FrameAllocator.freeSet (a : FrameAllocator) : Finset Nat :=
  (Finset.range a.totalFrames).filter fun f => a.isFree f = true

structure Exact (a : FrameAllocator) : Prop where
  words : a.words ≤ bitmapWords
  inside : ∀ f, f / 64 < a.words → a.bit f = true → f < a.totalFrames
  count : a.freeCount = a.freeSet.card
  top : a.freeTop ≤ freeStackSize
  stackFree : ∀ i < a.freeTop, a.isFree (a.freeStack i) = true
  stackOnce : ∀ i < a.freeTop, ∀ j < a.freeTop, a.freeStack i = a.freeStack j → i = j

/-! ## Free frames -/

variable {a : FrameAllocator} {f physBase physSize : Nat}

lemma word_lt (hf : f < a.totalFrames) : f / 64 < a.words := by
  unfold words
  omega

lemma isFree_iff_bit : a.isFree f = true ↔
  f < a.totalFrames ∧ f / 64 < bitmapWords ∧ a.bit f = true := by
  unfold isFree
  split_ifs with hf hword
  · simp [not_lt.mpr hf]
  · simp [not_lt.mpr hword]
  · simp [not_le.mp hf, not_le.mp hword]

lemma isFree_iff (hwords : a.words ≤ bitmapWords) :
  a.isFree f = true ↔ f < a.totalFrames ∧ a.bit f = true := by
  rw [isFree_iff_bit]
  exact and_congr_right fun hf => and_iff_right ((word_lt hf).trans_le hwords)

def InRange (a : FrameAllocator) : Prop :=
  ∀ f, f / 64 < a.words → f / 64 < bitmapWords → a.bit f = true → f < a.totalFrames

lemma Exact.inRange (h : Exact a) : InRange a := fun f hword _ => h.inside f hword

lemma mem_freeSet_iff : f ∈ a.freeSet ↔ a.isFree f = true := by
  rw [freeSet, Finset.mem_filter, Finset.mem_range]
  exact and_iff_right_of_imp fun hfree => (isFree_iff_bit.mp hfree).1

lemma mem_freeSet (hwords : a.words ≤ bitmapWords) :
  f ∈ a.freeSet ↔ f < a.totalFrames ∧ a.bit f = true := by
  rw [mem_freeSet_iff, isFree_iff hwords]

lemma card_freeSet_lt (hwords : a.words ≤ bitmapWords) : a.freeSet.card + 1 < usizeBound := by
  have hcard : a.freeSet.card ≤ a.totalFrames := by
    refine (Finset.card_filter_le _ _).trans ?_
    rw [Finset.card_range]
  have hsmall : 2048 * 64 + 1 < usizeBound := by decide
  simp only [words, bitmapWords] at hwords
  omega

/-! ## Taking frames -/

lemma foldl_clearBit (frames : List Nat) : ∀ a : FrameAllocator,
  frames.foldl clearBit a = { a with bitmap := frames.foldl Words.clear a.bitmap } := by
  induction frames with
  | nil => exact fun _ => rfl
  | cons f frames ih =>
    intro a
    rw [List.foldl_cons, ih]
    rfl

lemma bit_foldl_clearBit (frames : List Nat) : ∀ (a : FrameAllocator) (g : Nat),
  (frames.foldl clearBit a).bit g = (!decide (g ∈ frames) && a.bit g) := by
  induction frames with
  | nil => simp
  | cons f frames ih =>
    intro a g
    rw [List.foldl_cons, ih, bit_clearBit]
    by_cases hg : g = f <;> simp [hg]

def FrameAllocator.take (a : FrameAllocator) (frames : List Nat) : FrameAllocator :=
  (frames.foldl clearBit a).countDown frames.length

section
variable {a : FrameAllocator} {frames : List Nat}

lemma take_bit (g : Nat) : (a.take frames).bit g = (!decide (g ∈ frames) && a.bit g) := by
  rw [take, bit_countDown, bit_foldl_clearBit]

lemma take_fields (a : FrameAllocator) (frames : List Nat) :
  (a.take frames).totalFrames = a.totalFrames ∧
  (a.take frames).freeTop = a.freeTop ∧ (a.take frames).freeStack = a.freeStack ∧
  (a.take frames).freeCount = (a.freeCount + usizeBound - frames.length) % usizeBound := by
  unfold take
  rw [foldl_clearBit]
  unfold countDown
  exact ⟨by with_reducible rfl, by with_reducible rfl, by with_reducible rfl,
    by with_reducible rfl⟩

lemma take_words : (a.take frames).words = a.words := by
  rw [words, words, (take_fields a frames).1]

lemma Exact.take (h : Exact a) (hnodup : frames.Nodup) (hfree : ∀ f ∈ frames, a.isFree f = true)
  (hstack : ∀ i < a.freeTop, a.freeStack i ∉ frames) : Exact (a.take frames) := by
  obtain ⟨htotal, htop, hentries, hcount⟩ := take_fields a frames
  have hwords : (a.take frames).words ≤ bitmapWords := take_words.trans_le h.words
  have hset : (a.take frames).freeSet = a.freeSet \ frames.toFinset := by
    ext f
    rw [Finset.mem_sdiff, mem_freeSet hwords, mem_freeSet h.words, htotal, take_bit,
      List.mem_toFinset]
    simp only [Bool.and_eq_true, Bool.not_eq_true', decide_eq_false_iff_not]
    tauto
  have hsub : frames.toFinset ⊆ a.freeSet := by
    intro f hf
    rw [mem_freeSet h.words, ← isFree_iff h.words]
    exact hfree f (List.mem_toFinset.mp hf)
  refine ⟨hwords, fun f hword hbit => ?_, ?_, by rw [htop]; exact h.top, ?_, ?_⟩
  · rw [take_words] at hword
    rw [take_bit, Bool.and_eq_true] at hbit
    rw [htotal]
    exact h.inside f hword hbit.2
  · have hle := Finset.card_le_card hsub
    rw [List.toFinset_card_of_nodup hnodup] at hle
    have hsmall := card_freeSet_lt h.words
    rw [hset, Finset.card_sdiff_of_subset hsub, List.toFinset_card_of_nodup hnodup, hcount,
      h.count, Nat.sub_add_comm hle, Nat.add_mod_right, Nat.mod_eq_of_lt (by omega)]
  · intro i hi
    rw [htop] at hi
    rw [hentries, isFree_iff hwords, htotal, take_bit]
    obtain ⟨hlt, hbit⟩ := (isFree_iff h.words).mp (h.stackFree i hi)
    exact ⟨hlt, by simp [hstack i hi, hbit]⟩
  rw [htop, hentries]
  exact h.stackOnce

lemma Exact.shrink (h : Exact a) {top : Nat} (hle : top ≤ a.freeTop) :
  Exact { a with freeTop := top } where
  words := h.words
  inside := h.inside
  count := h.count
  top := hle.trans h.top
  stackFree i hi := h.stackFree i (lt_of_lt_of_le hi hle)
  stackOnce i hi j hj := h.stackOnce i (lt_of_lt_of_le hi hle) j (lt_of_lt_of_le hj hle)

end

/-! ## Giving a frame back -/

section
variable {a : FrameAllocator} {f : Nat}

lemma push_countUp (a : FrameAllocator) (f : Nat) : (a.push f).countUp = a.countUp.push f := by
  unfold push countUp
  split_ifs <;> with_reducible rfl

lemma release_bit (g : Nat) : (a.release f).bit g = (decide (g = f) || a.bit g) := by
  rw [release, bit_push, bit_countUp, bit_setBit]

lemma release_fields (a : FrameAllocator) (f : Nat) : (a.release f).totalFrames = a.totalFrames ∧
    (a.release f).freeCount = (a.freeCount + 1) % usizeBound ∧
    (((a.release f).freeTop = a.freeTop ∧ (a.release f).freeStack = a.freeStack) ∨
      (a.freeTop < freeStackSize ∧ (a.release f).freeTop = a.freeTop + 1 ∧
        (a.release f).freeStack = update a.freeStack a.freeTop f)) := by
  by_cases hroom : a.freeTop < freeStackSize
  · have heq : a.release f =
        { (a.setBit f).countUp with
          freeStack := update a.freeStack a.freeTop f
          freeTop := a.freeTop + 1 } := by
      exact if_pos hroom
    rw [heq]
    unfold countUp setBit
    exact ⟨by with_reducible rfl, by with_reducible rfl,
      .inr ⟨hroom, by with_reducible rfl, by with_reducible rfl⟩⟩
  have heq : a.release f = (a.setBit f).countUp := by
    exact if_neg hroom
  rw [heq]
  unfold countUp setBit
  exact ⟨by with_reducible rfl, by with_reducible rfl,
    .inl ⟨by with_reducible rfl, by with_reducible rfl⟩⟩

lemma release_words (a : FrameAllocator) (f : Nat) : (a.release f).words = a.words := by
  rw [words, words, (release_fields a f).1]

lemma isFree_release (hwords : a.words ≤ bitmapWords) (hf : f < a.totalFrames) (g : Nat) :
  (a.release f).isFree g = true ↔ g = f ∨ a.isFree g = true := by
  rw [isFree_iff ((release_words a f).trans_le hwords), isFree_iff hwords, (release_fields a f).1,
    release_bit]
  by_cases hg : g = f <;> simp [hg, hf]

lemma Exact.release (h : Exact a) (hf : f < a.totalFrames) (hbit : a.bit f = false) :
  Exact (a.release f) := by
  obtain ⟨htotal, hcount, hstack⟩ := release_fields a f
  have hwordsEq := release_words a f
  have hwords := hwordsEq.trans_le h.words
  have hset : (a.release f).freeSet = insert f a.freeSet := by
    ext g
    rw [Finset.mem_insert, mem_freeSet_iff, mem_freeSet_iff, isFree_release h.words hf]
  have hnot : f ∉ a.freeSet := fun hmem => by
    rw [((mem_freeSet h.words).mp hmem).2] at hbit
    cases hbit
  have hkept : ∀ i < a.freeTop, (a.release f).isFree (a.freeStack i) = true := fun i hi =>
    (isFree_release h.words hf _).mpr (.inr (h.stackFree i hi))
  have hself := (isFree_release h.words hf f).mpr (.inl rfl)
  -- The frame was not free, so it is not on the stack yet.
  have hfresh : ∀ i < a.freeTop, a.freeStack i ≠ f := by
    rintro i hi rfl
    rw [((isFree_iff h.words).mp (h.stackFree i hi)).2] at hbit
    cases hbit
  refine ⟨hwords, fun g hword hg => ?_, ?_, ?_, ?_, ?_⟩
  · rw [release_bit, Bool.or_eq_true, decide_eq_true_eq] at hg
    rw [htotal]
    rcases hg with rfl | hg
    · exact hf
    · exact h.inside g (hwordsEq ▸ hword) hg
  · have hsmall := card_freeSet_lt h.words
    rw [hset, Finset.card_insert_of_notMem hnot, hcount, h.count, Nat.mod_eq_of_lt hsmall]
  · rcases hstack with ⟨htop, _⟩ | ⟨hroom, htop, _⟩
    · exact htop.trans_le h.top
    · exact htop.trans_le hroom
  · intro i hi
    rcases hstack with ⟨htop, hentries⟩ | ⟨_, htop, hentries⟩
    · rw [hentries]
      exact hkept i (htop ▸ hi)
    rw [hentries]
    by_cases hlast : i = a.freeTop
    · rw [hlast, update_self]
      exact hself
    rw [update_of_ne hlast]
    exact hkept i (by omega)
  intro i hi j hj heq
  rcases hstack with ⟨htop, hentries⟩ | ⟨_, htop, hentries⟩
  · rw [hentries] at heq
    exact h.stackOnce i (htop ▸ hi) j (htop ▸ hj) heq
  rw [hentries] at heq
  by_cases hli : i = a.freeTop <;> by_cases hlj : j = a.freeTop
  · exact hli.trans hlj.symm
  · rw [hli, update_self, update_of_ne hlj] at heq
    exact absurd heq.symm (hfresh j (by omega))
  · rw [hlj, update_self, update_of_ne hli] at heq
    exact absurd heq (hfresh i (by omega))
  rw [update_of_ne hli, update_of_ne hlj] at heq
  exact h.stackOnce i (by omega) j (by omega) heq

lemma freeFrame_cases (hwords : a.words ≤ bitmapWords) (f : Nat) :
  (a.totalFrames ≤ f ∧ a.freeFrame f = (.error (.err .outOfBounds), a)) ∨
    (a.isFree f = true ∧ a.freeFrame f = (.error (.err .notAllocated), a)) ∨
    (f < a.totalFrames ∧ a.bit f = false ∧ a.freeFrame f = (.ok (), a.release f)) := by
  unfold freeFrame
  by_cases hf : a.totalFrames ≤ f
  · exact .inl ⟨hf, if_pos hf⟩
  have hlt := not_le.mp hf
  have hword := (word_lt hlt).trans_le hwords
  rw [if_neg hf]
  by_cases hbit : a.bit f = true
  · exact .inr (.inl ⟨(isFree_iff hwords).mpr ⟨hlt, hbit⟩, if_pos ⟨hword, hbit⟩⟩)
  refine .inr (.inr ⟨hlt, by simpa using hbit, ?_⟩)
  rw [if_neg fun hfree => hbit hfree.2, if_pos hword]
  dsimp only
  rw [push_countUp, FrameAllocator.release]

lemma Exact.freeFrame (h : Exact a) (f : Nat) : Exact (a.freeFrame f).2 := by
  rcases freeFrame_cases h.words f with ⟨_, heq⟩ | ⟨_, heq⟩ | ⟨hf, hbit, heq⟩
  · rw [heq]
    exact h
  · rw [heq]
    exact h
  rw [heq]
  exact h.release hf hbit

end

/-! ## Initialisation -/

lemma Exact.foldl_release {frames : List Nat} (hnodup : frames.Nodup) :
  ∀ {a : FrameAllocator}, Exact a → (∀ f ∈ frames, f < a.totalFrames ∧ a.bit f = false) →
    Exact (frames.foldl FrameAllocator.release a) := by
  induction frames with
  | nil => exact fun h _ => h
  | cons f frames ih =>
    intro a h hframes
    obtain ⟨hnot, hnodup⟩ := List.nodup_cons.mp hnodup
    obtain ⟨hf, hbit⟩ := hframes f List.mem_cons_self
    refine ih hnodup (h.release hf hbit) fun g hg => ?_
    obtain ⟨hlt, hgbit⟩ := hframes g (List.mem_cons_of_mem f hg)
    have hne : g ≠ f := fun heq => hnot (heq ▸ hg)
    rw [(release_fields a f).1, release_bit]
    exact ⟨hlt, by simp [hne, hgbit]⟩

def cleared (a : FrameAllocator) (physBase physSize : Nat) : FrameAllocator :=
  { a with
    physBase := physBase
    physSize := physSize
    totalFrames := physSize / pageSize
    freeTop := 0
    freeCount := 0
    bitmap := fun i => if i < (physSize / pageSize + 63) / 64 then 0#64 else a.bitmap i }

lemma cleared_bit (hword : f / 64 < (cleared a physBase physSize).words) :
  (cleared a physBase physSize).bit f = false := by
  rw [bit_eq]
  refine Words.test_of_word_eq_zero ?_
  exact if_pos hword

lemma exact_cleared (hwords : (cleared a physBase physSize).words ≤ bitmapWords) :
  Exact (cleared a physBase physSize) := by
  have hempty : (cleared a physBase physSize).freeSet = ∅ := by
    refine Finset.eq_empty_iff_forall_notMem.mpr fun f hf => ?_
    obtain ⟨hlt, hbit⟩ := (mem_freeSet hwords).mp hf
    rw [cleared_bit (word_lt hlt)] at hbit
    cases hbit
  refine ⟨hwords, fun f hword hbit => ?_, ?_, Nat.zero_le _, ?_, ?_⟩
  · rw [cleared_bit hword] at hbit
    cases hbit
  · rw [hempty]
    rfl
  · exact fun i hi => absurd hi (Nat.not_lt_zero i)
  · exact fun i hi => absurd hi (Nat.not_lt_zero i)

lemma init_cases (a : FrameAllocator) (physBase physSize reservedEnd : Nat) :
  (bitmapWords < (physSize / pageSize + 63) / 64 ∧ a.init physBase physSize reservedEnd =
        (.error .insufficientMemory, { a with
            physBase := physBase
            physSize := physSize
            totalFrames := physSize / pageSize
            freeTop := 0 })) ∨
    ((cleared a physBase physSize).words ≤ bitmapWords ∧
      a.init physBase physSize reservedEnd =
        (.ok (), (List.range' (firstFree reservedEnd)
          (physSize / pageSize - firstFree reservedEnd)).foldl FrameAllocator.release
            (cleared a physBase physSize))) := by
  by_cases hmany : bitmapWords < (physSize / pageSize + 63) / 64
  · exact .inl ⟨hmany, if_pos hmany⟩
  · exact .inr ⟨not_lt.mp hmany, if_neg hmany⟩

lemma exact_init {reservedEnd : Nat} (hok : (a.init physBase physSize reservedEnd).1 = .ok ()) :
  Exact (a.init physBase physSize reservedEnd).2 := by
  rcases init_cases a physBase physSize reservedEnd with ⟨_, heq⟩ | ⟨hwords, heq⟩
  · rw [heq] at hok
    cases hok
  rw [heq]
  refine (exact_cleared hwords).foldl_release (List.nodup_range' 1) fun f hf => ?_
  have hlt : f < physSize / pageSize := by
    have := List.mem_range'_1.mp hf
    omega
  exact ⟨hlt, cleared_bit (word_lt hlt)⟩

lemma take_singleton (a : FrameAllocator) (f : Nat) : a.take [f] = (a.clearBit f).countDown 1 := by
  rw [FrameAllocator.take, List.foldl_cons, List.foldl_nil, List.length_singleton]

/-- With an empty stack, `alloc_frame` returns the lowest free frame, or leaves the bitmap if
there is none in it and more words are expected. -/
lemma allocFrame_scan (h : InRange a) (hzero : a.freeTop = 0) :
  ((∀ f, a.isFree f = false) ∧ a.allocFrame =
      (.error (if a.words ≤ bitmapWords then .err .outOfFrames else .panic), a)) ∨
    ∃ f, a.isFree f = true ∧ a.allocFrame = (.ok f, a.take [f]) := by
  unfold allocFrame
  rw [if_neg (by omega)]
  cases hfind : (List.range a.words).find? fun w => bitmapWords ≤ w ∨ a.bitmap w ≠ 0#64 with
  | none =>
    have hwords : ∀ w < a.words, ¬ (bitmapWords ≤ w ∨ a.bitmap w ≠ 0#64) := by
      simpa using List.find?_range_eq_none.mp hfind
    refine .inl ⟨fun f => ?_, ?_⟩
    · by_contra hfree
      obtain ⟨hlt, _, hbit⟩ := isFree_iff_bit.mp (by simpa using hfree)
      have hempty := not_not.mp (not_or.mp (hwords (f / 64) (word_lt hlt))).2
      rw [bit_eq, Words.test_of_word_eq_zero hempty] at hbit
      cases hbit
    rw [if_pos]
    by_contra hmany
    exact hwords bitmapWords (not_le.mp hmany) (.inl le_rfl)
  | some w =>
    obtain ⟨hfound, hw, hbefore⟩ := List.find?_range_eq_some.mp hfind
    have hw := List.mem_range.mp hw
    dsimp only
    by_cases hpast : bitmapWords ≤ w
    · refine .inl ⟨fun f => ?_, ?_⟩
      · by_contra hfree
        obtain ⟨_, hword, hbit⟩ := isFree_iff_bit.mp (by simpa using hfree)
        have hempty := hbefore (f / 64) (hword.trans_le hpast)
        simp only [not_le.mpr hword, false_or, Bool.not_eq_true', decide_eq_false_iff_not,
          not_not] at hempty
        rw [bit_eq, Words.test_of_word_eq_zero hempty] at hbit
        cases hbit
      · rw [if_pos hpast, if_neg (not_le.mpr (hpast.trans_lt hw))]
    have hne : a.bitmap w ≠ 0#64 := by simpa [hpast] using hfound
    have hbit : a.bit (w * 64 + (a.bitmap w).ctz.toNat) = true := by
      rw [bit_eq]
      exact Words.test_ctz hne
    have hword : (w * 64 + (a.bitmap w).ctz.toNat) / 64 = w := by
      have hlow := Words.ctz_toNat_lt hne
      omega
    have hlt := h _ (hword.trans_lt hw) (hword.trans_lt (not_le.mp hpast)) hbit
    refine .inr ⟨_, isFree_iff_bit.mpr ⟨hlt, hword.trans_lt (not_le.mp hpast), hbit⟩, ?_⟩
    rw [take_singleton, if_neg hpast, if_neg (not_le.mpr hlt)]

lemma allocFrame_cases (h : Exact a) :
  ((∀ f, a.isFree f = false) ∧ a.allocFrame = (.error (.err .outOfFrames), a)) ∨
    ∃ f top, a.isFree f = true ∧ top ≤ a.freeTop ∧ (∀ i < top, a.freeStack i ≠ f) ∧
      a.allocFrame = (.ok f, ({ a with freeTop := top } : FrameAllocator).take [f]) := by
  by_cases htop : 0 < a.freeTop
  · -- From the stack.
    have hlast : a.freeTop - 1 < a.freeTop := by omega
    have hfree := h.stackFree _ hlast
    obtain ⟨_, hword, _⟩ := isFree_iff_bit.mp hfree
    refine .inr ⟨_, a.freeTop - 1, hfree, hlast.le, fun i hi heq => ?_, ?_⟩
    · have := h.stackOnce i (hi.trans hlast) _ hlast heq
      omega
    rw [take_singleton, FrameAllocator.allocFrame, if_pos htop]
    dsimp only
    rw [if_pos hword]
  -- From the bitmap.
  have hzero : a.freeTop = 0 := by omega
  rcases allocFrame_scan h.inRange hzero with ⟨hnone, heq⟩ | ⟨f, hfree, heq⟩
  · rw [if_pos h.words] at heq
    exact .inl ⟨hnone, heq⟩
  · exact .inr ⟨f, a.freeTop, hfree, le_rfl, fun i hi => absurd hi (by omega), heq⟩

lemma Exact.allocFrame (h : Exact a) : Exact a.allocFrame.2 := by
  rcases allocFrame_cases h with ⟨_, heq⟩ | ⟨f, top, hfree, htop, hstack, heq⟩
  · rw [heq]
    exact h
  rw [heq]
  refine (h.shrink htop).take (List.nodup_singleton f) (fun g hg => ?_) fun i hi hmem => ?_
  · rw [List.mem_singleton.mp hg]
    exact hfree
  · exact hstack i hi (List.mem_singleton.mp hmem)

/-- The calls of the single-frame fragment. -/
inductive SingleEvent
  | alloc
  | free (frame : Nat)

/-- Runs of single calls after a successful `init`. -/
def singleMachine : Machine FrameAllocator SingleEvent where
  init a := ∃ before physBase physSize reservedEnd, reservedEnd < 2 ^ 63 ∧
    (FrameAllocator.init before physBase physSize reservedEnd).1 = .ok () ∧
    a = (FrameAllocator.init before physBase physSize reservedEnd).2
  enabled _ _ := True
  step a
    | .alloc => a.allocFrame.2
    | .free frame => (a.freeFrame frame).2

lemma exact_of_reachable (ha : singleMachine.Reachable a) : Exact a := by
  refine ha.invariant Exact ?_ fun a e h _ => ?_
  · rintro a ⟨before, physBase, physSize, reservedEnd, _, hok, heq⟩
    rw [heq]
    exact exact_init hok
  cases e with
  | alloc => exact h.allocFrame
  | free frame => exact h.freeFrame frame

/-- After a successful `init` and any single calls, the counter is the number of free frames, the
stack lists free frames once each, and `alloc_frame` returns a free frame, or `OutOfFrames` when
there is none. -/
theorem single_frames_exact {a : FrameAllocator} (ha : singleMachine.Reachable a) :
  a.freeCount = ((Finset.range a.totalFrames).filter fun f => a.isFree f = true).card ∧
    (∀ i < a.freeTop, a.isFree (a.freeStack i) = true) ∧
    (∀ i < a.freeTop, ∀ j < a.freeTop, a.freeStack i = a.freeStack j → i = j) ∧
    ((∃ f < a.totalFrames, a.isFree f = true ∧ a.allocFrame.1 = .ok f) ∨
      ((∀ f, a.isFree f = false) ∧ a.allocFrame.1 = .error (.err .outOfFrames))) := by
  have h := exact_of_reachable ha
  refine ⟨h.count, h.stackFree, h.stackOnce, ?_⟩
  rcases allocFrame_cases h with ⟨hnone, heq⟩ | ⟨f, top, hfree, _, _, heq⟩
  · exact .inr ⟨hnone, by rw [heq]⟩
  · exact .inl ⟨f, ((isFree_iff h.words).mp hfree).1, hfree, by rw [heq]⟩

/-- 512 MB, with more free frames than the stack holds. -/
theorem single_frames_exact_large :
  let a := (new.init 0 (512 * 1024 * 1024) 0).2
  (∃ f < a.totalFrames, a.isFree f = true ∧ a.allocFrame.1 = .ok f) ∨
    ((∀ f, a.isFree f = false) ∧ a.allocFrame.1 = .error (.err .outOfFrames)) := by
  have hok : (new.init 0 (512 * 1024 * 1024) 0).1 = .ok () := by
    rcases init_cases new 0 (512 * 1024 * 1024) 0 with ⟨hmany, _⟩ | ⟨_, heq⟩
    · exact absurd hmany (by decide)
    · rw [heq]
  exact (single_frames_exact
    (Machine.reachable_of_init ⟨new, 0, 512 * 1024 * 1024, 0, by decide, hok, rfl⟩)).2.2.2

end Aeos.Frame
