/-
# Contiguous frames

`alloc_frames` takes its frames from the bitmap and leaves them on the free stack.
-/

import Aeos.Frame.Exact

namespace Aeos.Frame

open Lib FrameAllocator List Option

section
variable {a : FrameAllocator} {count start : Nat}

lemma isFree_of_contiguous (h : InRange a) (hrun : a.contiguous start count = some true) :
  ∀ i < count, a.isFree (start + i) = true := by
  unfold contiguous at hrun
  split at hrun
  · next hfind =>
      intro i hi
      have hstep := List.find?_range_eq_none.mp hfind i hi
      simp only [Bool.not_eq_true', decide_eq_false_iff_not, not_or, Bool.not_eq_false] at hstep
      obtain ⟨hword, hpast, hbit⟩ := hstep
      exact isFree_iff_bit.mpr
        ⟨h _ (not_le.mp hword) (not_le.mp hpast) hbit, not_le.mp hpast, hbit⟩
  · split_ifs at hrun <;> cases hrun

lemma run_of_findRun (h : InRange a) : ∀ {ws : List Nat}, a.findRun count ws = .ok start →
  (∃ w, a.bitmap w ≠ 0#64 ∧ start = w * 64 + (a.bitmap w).ctz.toNat) ∧
    ∀ i < count, a.isFree (start + i) = true := by
  intro ws
  induction ws with
  | nil => intro hfound; cases hfound
  | cons w ws ih =>
    intro hfound
    rw [findRun] at hfound
    dsimp only at hfound
    split_ifs at hfound with hpast hzero hfar
    · exact ih hfound
    · exact ih hfound
    cases hrun : a.contiguous (w * 64 + (a.bitmap w).ctz.toNat) count with
    | none =>
      rw [hrun] at hfound
      cases hfound
    | some free =>
      rw [hrun] at hfound
      cases free with
      | true =>
        obtain rfl := Except.ok.inj hfound
        exact ⟨⟨w, hzero, rfl⟩, isFree_of_contiguous h hrun⟩
      | false => exact ih hfound

lemma findRun_of_empty (hempty : ∀ w, a.bitmap w = 0#64) :
  ∀ ws : List Nat, a.findRun count ws ≠ .ok start := by
  intro ws
  induction ws with
  | nil => intro hfound; cases hfound
  | cons w ws ih =>
    rw [findRun, hempty w]
    split_ifs
    · intro hfound; cases hfound
    · exact ih
    · contradiction

end

/-- The allocator and what its callers know: the frames they hold, and the frames
they ever obtained. -/
structure World where
  alloc : FrameAllocator
  live : List Nat
  obtained : List Nat

inductive Event
  | allocFrame
  | allocFrames (count : Nat)
  | freeFrame (frame : Nat)
  | freeFrames (frame count : Nat)

def handed (a : FrameAllocator) : Event → Option (Nat × Nat)
  | .allocFrame => a.allocFrame.1.toOption.map fun f => (f, 1)
  | .allocFrames count => (a.allocFrames count).1.toOption.map fun f => (f, count)
  | _ => none

def World.take (w : World) (alloc : FrameAllocator) : Option (Nat × Nat) → World
  | none => { w with alloc := alloc }
  | some (f, n) =>
    { alloc := alloc
      live := List.range' f n ++ w.live
      obtained := List.range' f n ++ w.obtained }

def World.giveEach (w : World) : List Nat → World
  | [] => w
  | f :: frames =>
    match w.alloc.freeFrame f with
    | (.error _, alloc) => { w with alloc := alloc }
    | (.ok (), alloc) => giveEach { w with alloc := alloc, live := w.live.filter (· ≠ f) } frames

def react (w : World) : Event → World
  | .allocFrame => w.take w.alloc.allocFrame.2 (handed w.alloc .allocFrame)
  | .allocFrames count => w.take (w.alloc.allocFrames count).2 (handed w.alloc (.allocFrames count))
  | .freeFrame frame => w.giveEach [frame]
  | .freeFrames frame count =>
    w.giveEach ((List.range count).map fun i => (frame + i) % usizeBound)

def called (a : FrameAllocator) : Event → FrameAllocator
  | .allocFrame => a.allocFrame.2
  | .allocFrames count => (a.allocFrames count).2
  | .freeFrame frame => (a.freeFrame frame).2
  | .freeFrames frame count => (a.freeFrames frame count).2

def admits (w : World) : Event → Prop
  | .allocFrame => True
  | .allocFrames count => count < usizeBound
  | .freeFrame frame => frame ∈ w.obtained
  | .freeFrames frame count => ∀ i < count, (frame + i) % usizeBound ∈ w.obtained

/-- Runs after `init` of a new allocator, successful or not. -/
def machine : Machine World Event where
  init w := ∃ physBase physSize reservedEnd,
    w = ⟨(new.init physBase physSize reservedEnd).2, [], []⟩
  enabled := admits
  step := react

/-- What the next call hands out is nobody's, and the counter covers it. -/
def Safe (w : World) : Prop :=
  ∀ e f n, admits w e → handed w.alloc e = some (f, n) →
    (∀ i < n, f + i ∉ w.live) ∧ n ≤ w.alloc.freeCount

def OffStack (a : FrameAllocator) (count : Nat) : Prop :=
  ∀ start, (∀ i < count, a.isFree (start + i) = true) →
    ∀ i < count, ∀ j < a.freeTop, a.freeStack j ≠ start + i

/-- Contiguous requests find no frame that is on the stack. -/
def guard (w : World) : Event → Prop
  | .allocFrames count => 2 ≤ count → OffStack w.alloc count
  | _ => True

structure Owned (w : World) : Prop where
  exact : Exact w.alloc
  live : ∀ f ∈ w.live, w.alloc.isFree f = false

structure Dead (w : World) : Prop where
  words : bitmapWords < w.alloc.words
  bitmap : ∀ i, w.alloc.bitmap i = 0#64
  stack : w.alloc.freeTop = 0
  obtained : w.obtained = []

section
variable {w : World} {e : Event}

lemma handed_free (h : Exact w.alloc) {f n : Nat}
  (hhanded : handed w.alloc e = some (f, n)) : ∀ i < n, w.alloc.isFree (f + i) = true := by
  have hsingle : ∀ {g}, w.alloc.allocFrame.1.toOption = some g → w.alloc.isFree g = true := by
    intro g hg
    rcases allocFrame_cases h with ⟨_, heq⟩ | ⟨f, top, hfree, _, _, heq⟩
    · rw [heq] at hg
      cases hg
    rw [heq] at hg
    obtain rfl := some.inj hg
    exact hfree
  cases e with
  | allocFrame =>
    obtain ⟨g, hg, heq⟩ := map_eq_some_iff.mp hhanded
    obtain ⟨rfl, rfl⟩ := Prod.mk.inj heq
    intro i hi
    obtain rfl : i = 0 := by omega
    exact hsingle hg
  | allocFrames count =>
    obtain ⟨g, hg, heq⟩ := map_eq_some_iff.mp hhanded
    obtain ⟨rfl, rfl⟩ := Prod.mk.inj heq
    unfold allocFrames at hg
    by_cases hzero : count = 0
    · rw [if_pos hzero] at hg
      cases hg
    rw [if_neg hzero] at hg
    by_cases hone : count = 1
    · rw [if_pos hone] at hg
      intro i hi
      obtain rfl : i = 0 := by omega
      exact hsingle hg
    rw [if_neg hone] at hg
    cases hfound : w.alloc.findRun count (List.range w.alloc.words) with
    | error failure =>
      rw [hfound] at hg
      cases hg
    | ok start =>
      rw [hfound] at hg
      obtain rfl := some.inj hg
      exact (run_of_findRun h.inRange hfound).2
  | freeFrame | freeFrames => cases hhanded

section
variable (h : Owned w)
include h

lemma Owned.safe : Safe w := by
  intro e f n _ hhanded
  have hfree := handed_free h.exact hhanded
  refine ⟨fun i hi hlive => ?_, ?_⟩
  · have hnot := h.live _ hlive
    rw [hfree i hi] at hnot
    cases hnot
  have hsub : (List.range' f n).toFinset ⊆ w.alloc.freeSet := by
    intro g hg
    obtain ⟨hlo, hhi⟩ := mem_range'_1.mp (List.mem_toFinset.mp hg)
    have hgfree := hfree (g - f) (by omega)
    rw [Nat.add_sub_cancel' hlo] at hgfree
    exact (mem_freeSet h.exact.words).mpr ((isFree_iff h.exact.words).mp hgfree)
  have hcard := Finset.card_le_card hsub
  rwa [toFinset_card_of_nodup (nodup_range' 1), length_range',
    ← h.exact.count] at hcard

lemma Owned.taken {a : FrameAllocator} {f n : Nat} (ha : a.totalFrames = w.alloc.totalFrames)
    (hbits : ∀ g, a.bit g = w.alloc.bit g) (hexact : Exact (a.take (List.range' f n))) :
  Owned (w.take (a.take (List.range' f n)) (some (f, n))) := by
  refine ⟨hexact, fun g hg => ?_⟩
  change (a.take (List.range' f n)).isFree g = false
  by_contra hfree
  obtain ⟨hlt, hbit⟩ := (isFree_iff hexact.words).mp (by simpa using hfree)
  rw [take_bit, hbits, Bool.and_eq_true] at hbit
  rw [(take_fields a _).1, ha] at hlt
  rcases mem_append.mp hg with hnew | hold
  · simp [hnew] at hbit
  have hnot := h.live g hold
  rw [(isFree_iff h.exact.words).mpr ⟨hlt, hbit.2⟩] at hnot
  cases hnot

lemma Owned.allocFrame :
  Owned (w.take w.alloc.allocFrame.2 (w.alloc.allocFrame.1.toOption.map fun f => (f, 1))) := by
  have hexact := h.exact.allocFrame
  rcases allocFrame_cases h.exact with ⟨_, heq⟩ | ⟨f, top, _, _, _, heq⟩
  · rw [heq]
    exact h
  rw [heq] at hexact ⊢
  exact h.taken (n := 1) rfl (fun _ => rfl) hexact

lemma Owned.allocFrames {count : Nat} (hguard : 2 ≤ count → OffStack w.alloc count) :
  Owned (w.take (w.alloc.allocFrames count).2
    ((w.alloc.allocFrames count).1.toOption.map fun f => (f, count))) := by
  unfold FrameAllocator.allocFrames
  by_cases hzero : count = 0
  · rw [if_pos hzero]
    exact h
  by_cases hone : count = 1
  · rw [if_neg hzero, if_pos hone, hone]
    exact h.allocFrame
  rw [if_neg hzero, if_neg hone]
  cases hfound : w.alloc.findRun count (List.range w.alloc.words) with
  | error failure => exact h
  | ok start =>
    have hfree := (run_of_findRun h.exact.inRange hfound).2
    have htake : ((List.range' start count).foldl clearBit w.alloc).countDown count =
        w.alloc.take (List.range' start count) := by
      rw [FrameAllocator.take, length_range']
    dsimp only
    rw [htake]
    refine h.taken rfl (fun _ => rfl) (h.exact.take (nodup_range' 1) (fun g hg => ?_) ?_)
    · obtain ⟨hlo, hhi⟩ := mem_range'_1.mp hg
      have hgfree := hfree (g - start) (by omega)
      rwa [Nat.add_sub_cancel' hlo] at hgfree
    intro j hj hmem
    obtain ⟨hlo, hhi⟩ := mem_range'_1.mp hmem
    refine hguard (by omega) start hfree (w.alloc.freeStack j - start) (by omega) j hj ?_
    exact (Nat.add_sub_cancel' hlo).symm

end

lemma Owned.giveEach (frames : List Nat) : ∀ {w : World}, Owned w → Owned (w.giveEach frames) := by
  induction frames with
  | nil => exact fun h => h
  | cons f frames ih =>
    intro w h
    rw [World.giveEach]
    rcases freeFrame_cases h.exact.words f with ⟨_, heq⟩ | ⟨_, heq⟩ | ⟨hf, hbit, heq⟩
    · rw [heq]
      exact h
    · rw [heq]
      exact h
    rw [heq]
    have hexact := h.exact.release hf hbit
    refine ih ⟨hexact, fun g hg => ?_⟩
    obtain ⟨hlive, hne⟩ := mem_filter.mp hg
    have hne : g ≠ f := by simpa using hne
    by_contra hfree
    obtain ⟨hlt, hgbit⟩ := (isFree_iff hexact.words).mp (by simpa using hfree)
    rw [(release_fields w.alloc f).1] at hlt
    rw [release_bit] at hgbit
    have hnot := h.live g hlive
    rw [(isFree_iff h.exact.words).mpr ⟨hlt, by simpa [hne] using hgbit⟩] at hnot
    cases hnot

lemma Dead.allocFrame_eq (h : Dead w) : w.alloc.allocFrame = (.error .panic, w.alloc) := by
  have hbits : ∀ f, w.alloc.bit f = false := by
    intro f
    rw [bit_eq, Words.test_of_word_eq_zero (h.bitmap _)]
  have hrange : InRange w.alloc := by
    intro f _ _ hbit
    rw [hbits f] at hbit
    cases hbit
  rcases allocFrame_scan hrange h.stack with ⟨_, heq⟩ | ⟨f, hfree, _⟩
  · rw [heq, if_neg (not_le.mpr h.words)]
  have hbit := (isFree_iff_bit.mp hfree).2.2
  rw [hbits f] at hbit
  cases hbit

lemma Dead.allocFrames (h : Dead w) (count : Nat) :
  ∃ failure, w.alloc.allocFrames count = (.error failure, w.alloc) := by
  unfold FrameAllocator.allocFrames
  split_ifs
  · exact ⟨_, rfl⟩
  · exact ⟨_, h.allocFrame_eq⟩
  cases hfound : w.alloc.findRun count (List.range w.alloc.words) with
  | error failure => exact ⟨failure, rfl⟩
  | ok start => exact absurd hfound (findRun_of_empty h.bitmap _)

lemma Dead.handed (h : Dead w) (e : Event) : handed w.alloc e = none := by
  cases e with
  | allocFrame =>
    simp only [Frame.handed, h.allocFrame_eq]
    rfl
  | allocFrames count =>
    obtain ⟨failure, heq⟩ := h.allocFrames count
    simp only [Frame.handed, heq]
    rfl
  | freeFrame | freeFrames => rfl

lemma Owned.step (h : Owned w) (hguard : guard w e) : Owned (react w e) := by
  cases e with
  | allocFrame => exact h.allocFrame
  | allocFrames count => exact h.allocFrames hguard
  | freeFrame frame => exact h.giveEach [frame]
  | freeFrames frame count => exact h.giveEach _

/-- Step lemma for a dead allocator: no call that is admitted changes it. -/
lemma Dead.step (h : Dead w) (hadmits : admits w e) : react w e = w := by
  have hnone := h.handed e
  cases e with
  | allocFrame => simp only [react, hnone, World.take, h.allocFrame_eq]
  | allocFrames count =>
    obtain ⟨failure, heq⟩ := h.allocFrames count
    simp only [react, hnone, World.take, heq]
  | freeFrame frame =>
    have hmem : frame ∈ w.obtained := hadmits
    rw [h.obtained] at hmem
    cases hmem
  | freeFrames frame count =>
    cases count with
    | zero => rfl
    | succ count =>
      have hmem := hadmits 0 (Nat.succ_pos count)
      rw [h.obtained] at hmem
      cases hmem

end

lemma owned_or_dead {w : World} (hw : (machine.restrict guard).Reachable w) : Owned w ∨ Dead w := by
  refine hw.invariant (fun w => Owned w ∨ Dead w) ?_ fun w e h henabled => ?_
  · rintro w ⟨physBase, physSize, reservedEnd, rfl⟩
    rcases init_cases new physBase physSize reservedEnd with ⟨hmany, heq⟩ | ⟨_, heq⟩
    · refine .inr ?_
      rw [heq]
      exact ⟨hmany, fun _ => rfl, rfl, rfl⟩
    refine .inl ⟨?_, by simp⟩
    exact exact_init (by rw [heq])
  rcases h with h | h
  · exact .inl (h.step henabled.2)
  exact .inr (by
    have hsame : (machine.restrict guard).step w e = w := h.step henabled.1
    rwa [hsame])

/-- Where contiguous requests find no frame of the stack, no call hands out a frame that a caller
holds, and the counter never runs below zero. -/
theorem frames_not_handed_out_twice {w : World} (hw : (machine.restrict guard).Reachable w) :
  Safe w := by
  rcases owned_or_dead hw with h | h
  · exact h.safe
  intro e f n _ hhanded
  rw [h.handed e] at hhanded
  cases hhanded

def smallWorld : World := ⟨(new.init 0 16384 0).2, [], []⟩

lemma smallWorld_init : machine.init smallWorld := ⟨0, 16384, 0, rfl⟩

/-- The frames go out one by one, so that the stack is empty; a contiguous request
then fails, and a frame comes back. -/
theorem frames_not_handed_out_twice_small :
  ∃ w, (machine.restrict guard).Reachable w ∧ w.live = [1, 3] ∧
    handed w.alloc .allocFrame = some (2, 1) ∧ Safe w := by
  have hboot : (machine.restrict guard).Reachable smallWorld :=
    Machine.reachable_of_init smallWorld_init
  have hthree : (machine.restrict guard).Run smallWorld [.allocFrame, .allocFrame, .allocFrame]
      (react (react (react smallWorld .allocFrame) .allocFrame) .allocFrame) :=
    .cons ⟨trivial, trivial⟩ (.cons ⟨trivial, trivial⟩ (.cons ⟨trivial, trivial⟩ (.nil _)))
  generalize hw : react (react (react smallWorld .allocFrame) .allocFrame) .allocFrame = w at hthree
  have htop : w.alloc.freeTop = 0 := by
    rw [← hw]
    decide +kernel
  have hoff : guard w (.allocFrames 2) := by
    intro _ start _ i _ j hj
    rw [htop] at hj
    exact absurd hj (Nat.not_lt_zero j)
  have hfreed : 2 ∈ (react w (.allocFrames 2)).obtained := by
    rw [← hw]
    decide +kernel
  have hlast : (machine.restrict guard).Run w [.allocFrames 2, .freeFrame 2]
      (react (react w (.allocFrames 2)) (.freeFrame 2)) :=
    .cons ⟨show 2 < usizeBound by decide, hoff⟩ (.cons ⟨hfreed, trivial⟩ (.nil _))
  have hreach := (hboot.run hthree).run hlast
  refine ⟨_, hreach, ?_, ?_, frames_not_handed_out_twice hreach⟩
  · rw [← hw]
    decide +kernel
  rw [← hw]
  decide +kernel

/-- All frames go out as one run; the stack still lists them, and the next call
hands out frame `3` again and takes the counter below zero. -/
theorem frame_handed_out_twice :
  ∃ w, machine.Reachable w ∧ handed w.alloc .allocFrame = some (3, 1) ∧ 3 ∈ w.live ∧
    w.alloc.freeCount = 0 := by
  have hboot := Machine.reachable_of_init smallWorld_init
  have hadmits : machine.enabled smallWorld (.allocFrames 3) := show 3 < usizeBound by decide
  exact ⟨_, hboot.step hadmits, by decide +kernel, by decide +kernel, by decide +kernel⟩

end Aeos.Frame
