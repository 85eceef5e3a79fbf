/-
# Runs of free frames

`alloc_frames` looks for its frames once in every word of the bitmap, from the lowest
free frame of the word on.
-/

import Aeos.Frame.Contiguous

namespace Aeos.Frame

open Lib FrameAllocator List

/-- Calls of `init`, `alloc_frame` and `free_frame`, in any order. -/
inductive Step
  | init (physBase physSize reservedEnd : Nat)
  | alloc
  | free (frame : Nat)

def stepMachine : Machine FrameAllocator Step where
  init a := a = new
  enabled _ _ := True
  step a
    | .init physBase physSize reservedEnd => (a.init physBase physSize reservedEnd).2
    | .alloc => a.allocFrame.2
    | .free frame => (a.freeFrame frame).2

namespace FrameAllocator

def candidate (a : FrameAllocator) (w : Nat) : Nat := w * 64 + (a.bitmap w).ctz.toNat

def RunFrom (a : FrameAllocator) (start count : Nat) : Prop :=
  ∀ i < count, a.isFree (start + i) = true

end FrameAllocator

variable {a : FrameAllocator} {count start : Nat}

/-- Run lemma: the last `init` succeeded, or there are more frames than bits. -/
lemma exact_or_large (ha : stepMachine.Reachable a) : Exact a ∨ bitmapWords < a.words := by
  refine ha.invariant (fun a => Exact a ∨ bitmapWords < a.words) ?_ fun a e h _ => ?_
  · rintro a rfl
    exact .inl (@exact_cleared new 0 0 (by decide))
  cases e with
  | init physBase physSize reservedEnd =>
    rcases init_cases a physBase physSize reservedEnd with ⟨hmany, heq⟩ | ⟨_, heq⟩
    · right
      show bitmapWords < (a.init physBase physSize reservedEnd).2.words
      rw [heq]
      exact hmany
    · exact .inl (exact_init (congrArg Prod.fst heq))
  | alloc =>
    refine h.imp (fun h => h.allocFrame) fun h => ?_
    show bitmapWords < a.allocFrame.2.words
    rwa [words, allocFrame_totalFrames]
  | free frame =>
    refine h.imp (fun h => h.freeFrame frame) fun h => ?_
    show bitmapWords < (a.freeFrame frame).2.words
    rwa [words, freeFrame_totalFrames]

lemma inRange_of_reachable (ha : stepMachine.Reachable a) : InRange a := by
  rcases exact_or_large ha with h | hlarge
  · exact h.inRange
  intro f _ hword _
  rw [words, bitmapWords] at hlarge
  rw [bitmapWords] at hword
  omega

lemma contiguous_of_runFrom (hrun : a.RunFrom start count) :
  a.contiguous start count = some true := by
  unfold contiguous
  rw [List.find?_range_eq_none.mpr]
  intro i hi
  obtain ⟨hlt, hword, hbit⟩ := isFree_iff_bit.mp (hrun i hi)
  simp [not_le.mpr (word_lt hlt), not_le.mpr hword, hbit]

/-- A search that leaves the bitmap has met a run up to its end, and no later candidate has room
either. -/
lemma contiguous_ne_none {start' : Nat} (hle : start ≤ start') (hrun : a.RunFrom start' count) :
  a.contiguous start count ≠ none := by
  unfold contiguous
  split
  · nofun
  next i hfind =>
  split_ifs with _ hpast
  · nofun
  · have hi := mem_range.mp (List.mem_of_find?_eq_some hfind)
    obtain ⟨_, hword, _⟩ := isFree_iff_bit.mp (hrun i hi)
    omega
  · nofun

lemma findRun_of_candidate {w : Nat} (hcount : 0 < count) (hne : a.bitmap w ≠ 0#64)
  (hrun : a.RunFrom (a.candidate w) count) : ∀ {ws : List Nat}, ws.Pairwise (· < ·) → w ∈ ws →
    ∃ start, a.findRun count ws = .ok start := by
  obtain ⟨hlast, hword, _⟩ := isFree_iff_bit.mp (hrun (count - 1) (by omega))
  have hin : w < bitmapWords := by
    unfold candidate at hword
    omega
  intro ws
  induction ws with
  | nil => exact fun _ hw => nomatch hw
  | cons k ws ih =>
    intro hsorted hw
    obtain ⟨hfirst, hsorted⟩ := pairwise_cons.mp hsorted
    rw [findRun]
    rcases mem_cons.mp hw with rfl | hw
    · have hsmall : a.candidate w + count < usizeBound := by
        rw [bitmapWords] at hword
        rw [usizeBound]
        omega
      have hnear : ¬ a.totalFrames < (a.candidate w + count) % usizeBound := by
        rw [Nat.mod_eq_of_lt hsmall]
        omega
      rw [if_neg (not_le.mpr hin), if_neg hne]
      have hfound := contiguous_of_runFrom hrun
      unfold candidate at hnear hfound
      rw [if_neg hnear, hfound]
      exact ⟨_, rfl⟩
    have hless := hfirst w hw
    rw [if_neg (by omega)]
    dsimp only
    split_ifs with hzero
    · exact ih hsorted hw
    · exact ih hsorted hw
    have hbefore : k * 64 + (a.bitmap k).ctz.toNat ≤ a.candidate w := by
      have hctz := Words.ctz_toNat_lt hzero
      unfold candidate
      omega
    cases hfound : a.contiguous (k * 64 + (a.bitmap k).ctz.toNat) count with
    | none => exact absurd hfound (contiguous_ne_none hbefore hrun)
    | some free =>
      cases free with
      | true => exact ⟨_, rfl⟩
      | false => exact ih hsorted hw

/-! ## Completeness -/

/-- The call succeeds exactly if there are `count` free frames in a row, and returns the
first of such frames. -/
def Complete (a : FrameAllocator) (count : Nat) : Prop :=
  ((∃ start, (a.allocFrames count).1 = .ok start) ↔ ∃ start, a.RunFrom start count) ∧
    ∀ start, (a.allocFrames count).1 = .ok start → a.RunFrom start count

/-- For one frame, the top of the stack is free; for more, if they exist, some start at the lowest
free frame of a word. -/
def Finds (a : FrameAllocator) (count : Nat) : Prop :=
  if count = 1 then 0 < a.freeTop → a.isFree (a.freeStack (a.freeTop - 1)) = true
  else (∃ start, a.RunFrom start count) →
    ∃ w, a.bitmap w ≠ 0#64 ∧ a.RunFrom (a.candidate w) count

lemma runFrom_one : a.RunFrom start 1 ↔ a.isFree start = true := by
  constructor
  · exact fun hrun => hrun 0 Nat.one_pos
  intro hfree i hi
  obtain rfl : i = 0 := by omega
  exact hfree

lemma complete_one_iff (h : InRange a) :
  Complete a 1 ↔ (0 < a.freeTop → a.isFree (a.freeStack (a.freeTop - 1)) = true) := by
  have hcall : a.allocFrames 1 = a.allocFrame := rfl
  rw [Complete, hcall]
  simp only [runFrom_one]
  by_cases htop : 0 < a.freeTop
  · have hpop : a.allocFrame.1 = .ok (a.freeStack (a.freeTop - 1)) := by
      rw [allocFrame, if_pos htop]
    simp only [hpop, htop, true_implies]
    constructor
    · exact fun hcomplete => hcomplete.2 _ rfl
    refine fun hfree => ⟨iff_of_true ⟨_, rfl⟩ ⟨_, hfree⟩, ?_⟩
    rintro start hstart
    rwa [← Except.ok.inj hstart]
  refine iff_of_true ?_ fun hpos => absurd hpos htop
  rcases allocFrame_scan h (by omega) with ⟨hnone, heq⟩ | ⟨f, hfree, heq⟩
  · rw [heq]
    simp [hnone]
  rw [heq]
  refine ⟨iff_of_true ⟨f, rfl⟩ ⟨f, hfree⟩, fun start hstart => ?_⟩
  rwa [← Except.ok.inj hstart]

lemma complete_many_iff (h : InRange a) (hcount : 1 < count) :
  Complete a count ↔ ((∃ start, a.RunFrom start count) →
    ∃ w, a.bitmap w ≠ 0#64 ∧ a.RunFrom (a.candidate w) count) := by
  have hcall : ∀ start, (a.allocFrames count).1 = .ok start ↔
      a.findRun count (List.range a.words) = .ok start := by
    intro start
    rw [allocFrames, if_neg (by omega), if_neg (by omega)]
    cases a.findRun count (List.range a.words) with
    | error failure => exact Iff.rfl
    | ok found => exact Iff.rfl
  simp only [Complete, hcall]
  constructor
  · intro hcomplete hruns
    obtain ⟨start, hfound⟩ := hcomplete.1.mpr hruns
    obtain ⟨⟨w, hne, rfl⟩, hrun⟩ := run_of_findRun h hfound
    exact ⟨w, hne, hrun⟩
  intro hcandidate
  have hsound : ∀ start, a.findRun count (List.range a.words) = .ok start →
      a.RunFrom start count := fun start hfound => (run_of_findRun h hfound).2
  refine ⟨⟨fun ⟨start, hfound⟩ => ⟨start, hsound start hfound⟩, fun hruns => ?_⟩, hsound⟩
  obtain ⟨w, hne, hrun⟩ := hcandidate hruns
  have hw : w < a.words := by
    have hlt := (isFree_iff_bit.mp (hrun 0 (by omega))).1
    unfold candidate at hlt
    unfold words
    omega
  exact findRun_of_candidate (by omega) hne hrun pairwise_lt_range (mem_range.mpr hw)

/-- In every state that calls of `init`, `alloc_frame` and `free_frame` can reach, `alloc_frames`
is complete exactly if there is such a run at the lowest free frame of a word whenever there is
one anywhere; for one frame, exactly if the top of the stack is free. -/
theorem alloc_frames_complete_iff {a : FrameAllocator} {count : Nat}
  (ha : stepMachine.Reachable a) (hcount : 1 ≤ count) : Complete a count ↔ Finds a count := by
  have h := inRange_of_reachable ha
  unfold Finds
  split_ifs with hone
  · rw [hone]
    exact complete_one_iff h
  · exact complete_many_iff h (by omega)

lemma reachable_steps (steps : List Step) :
  stepMachine.Reachable (steps.foldl stepMachine.step new) :=
  ⟨new, steps, rfl, Machine.run_foldl (fun _ _ => trivial) new steps⟩

def sixFrames : FrameAllocator := [Step.init 0 (6 * 4096) 0].foldl stepMachine.step new

theorem alloc_frames_complete_six : Complete sixFrames 2 := by
  refine (alloc_frames_complete_iff (reachable_steps _) (by decide)).mpr ?_
  refine fun _ => ⟨0, by decide +kernel, ?_⟩
  unfold FrameAllocator.RunFrom
  decide +kernel

def gapped : FrameAllocator :=
  [Step.alloc, .alloc, .alloc, .alloc, .free 4, .free 5].foldl stepMachine.step sixFrames

/-- Two frames in a row are free, but they do not start at frame 1. -/
theorem run_behind_gap_not_found : stepMachine.Reachable gapped ∧ gapped.RunFrom 4 2 ∧
  (gapped.allocFrames 2).1 = .error (.err .outOfFrames) := by
  refine ⟨(reachable_steps _).run (Machine.run_foldl (fun _ _ => trivial) sixFrames _), ?_,
    by decide +kernel⟩
  unfold FrameAllocator.RunFrom
  decide +kernel

end Aeos.Frame
