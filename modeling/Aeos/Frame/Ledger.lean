/-
# Frames that can be freed

The bitmap has one bit for a frame, and a frame that `init` kept back looks like one
that a caller has.
-/

import Aeos.Frame.Served

namespace Aeos.Frame

open Lib FrameAllocator List

/-- The allocator, and the frames that it returned and that were not freed since. -/
structure Ledger where
  alloc : FrameAllocator
  live : List Nat

/-- Runs of single calls after an `init` that succeeded. -/
def ledger (reservedEnd : Nat) : Machine Ledger SingleEvent where
  init l := ∃ before physBase physSize,
    (FrameAllocator.init before physBase physSize reservedEnd).1 = .ok () ∧
    l = ⟨(FrameAllocator.init before physBase physSize reservedEnd).2, []⟩
  enabled _ _ := True
  step l
    | .alloc =>
      match l.alloc.allocFrame with
      | (.ok f, a) => ⟨a, f :: l.live⟩
      | (.error _, a) => ⟨a, l.live⟩
    | .free f =>
      match l.alloc.freeFrame f with
      | (.ok _, a) => ⟨a, l.live.filter (· ≠ f)⟩
      | (.error _, a) => ⟨a, l.live⟩

def Reserved (reservedEnd f : Nat) : Prop := f = 0 ∨ f * pageSize < reservedEnd

/-- A frame is accepted exactly if it is out, and no reserved frame is accepted or
returned. -/
def Accounted (reservedEnd : Nat) (l : Ledger) : SingleEvent → Prop
  | .alloc => ∀ f, l.alloc.allocFrame.1 = .ok f → ¬ Reserved reservedEnd f
  | .free f => ((l.alloc.freeFrame f).1 = .ok () ↔ f ∈ l.live) ∧
    ((l.alloc.freeFrame f).1 = .ok () → ¬ Reserved reservedEnd f)

/-- Nobody frees a frame that `init` kept back, and if its rounding wrapped, there is
nothing to allocate. -/
def Cautious (reservedEnd : Nat) (l : Ledger) : SingleEvent → Prop
  | .alloc => reservedEnd + pageSize ≤ usizeBound ∨ ∀ f, l.alloc.isFree f = false
  | .free f => f < firstFree reservedEnd → l.alloc.totalFrames ≤ f

structure Balanced (reservedEnd : Nat) (l : Ledger) : Prop where
  exact : Exact l.alloc
  free : ∀ f < l.alloc.totalFrames,
    (l.alloc.isFree f = true ↔ firstFree reservedEnd ≤ f ∧ f ∉ l.live)
  live : ∀ f ∈ l.live, f < l.alloc.totalFrames ∧ firstFree reservedEnd ≤ f ∧
    ¬ Reserved reservedEnd f

variable {reservedEnd f : Nat} {l : Ledger}

lemma reserved_iff (hend : reservedEnd < usizeBound) (hf : f < 64 * bitmapWords)
  (hfirst : firstFree reservedEnd ≤ f) :
  ¬ Reserved reservedEnd f ↔ reservedEnd + pageSize ≤ usizeBound := by
  unfold Reserved firstFree at *
  rw [usizeBound, pageSize, bitmapWords] at *
  omega

lemma balanced_init (hl : (ledger reservedEnd).init l) : Balanced reservedEnd l := by
  obtain ⟨before, physBase, physSize, hok, rfl⟩ := hl
  have hexact := exact_init hok
  have htotal : (before.init physBase physSize reservedEnd).2.totalFrames =
      physSize / pageSize := by
    rcases init_cases before physBase physSize reservedEnd with ⟨_, heq⟩ | ⟨_, heq⟩
    · rw [heq]
    rw [heq]
    exact (bit_foldl_release _ _ 0).2
  have hsize : physSize / pageSize ≤ 64 * bitmapWords := by
    have hwords := hexact.words
    rw [words, htotal] at hwords
    omega
  refine ⟨hexact, fun f hf => ?_, fun f hf => absurd hf not_mem_nil⟩
  rw [isFree_init hsize]
  simp [htotal ▸ hf]

namespace Balanced

variable (h : Balanced reservedEnd l)
include h

lemma lt_of_frame (hf : f < l.alloc.totalFrames) : f < 64 * bitmapWords := by
  have hwords := h.exact.words
  unfold words at hwords
  omega

lemma accounted_iff (hend : reservedEnd < usizeBound) (e : SingleEvent) :
    Accounted reservedEnd l e ↔ Cautious reservedEnd l e := by
  cases e with
  | alloc =>
    rw [Accounted, Cautious]
    rcases allocFrame_step h.exact with ⟨hempty, heq⟩ | ⟨f, hok, hfree, _⟩
    · rw [heq]
      exact iff_of_true nofun (.inr hempty)
    have hf := (isFree_iff_bit.mp hfree).1
    have hfirst := ((h.free f hf).mp hfree).1
    rw [← reserved_iff hend (h.lt_of_frame hf) hfirst, hok]
    constructor
    · exact fun hgood => .inl (hgood f rfl)
    rintro (hgood | hempty) g hg
    · exact Except.ok.inj hg ▸ hgood
    · exact absurd hfree (by simp [hempty])
  | free f =>
    rw [Accounted, Cautious]
    rcases freeFrame_cases h.exact.words f with ⟨hf, heq⟩ | ⟨hfree, heq⟩ | ⟨hf, hbit, heq⟩
    · rw [heq]
      refine iff_of_true ⟨iff_of_false nofun fun hlive => ?_, nofun⟩ fun _ => hf
      exact absurd (h.live f hlive).1 (not_lt.mpr hf)
    · rw [heq]
      obtain ⟨hfirst, hlive⟩ := (h.free f (isFree_iff_bit.mp hfree).1).mp hfree
      exact iff_of_true ⟨iff_of_false nofun hlive, nofun⟩ fun hlow => absurd hlow (by omega)
    have hfree : ¬ (firstFree reservedEnd ≤ f ∧ f ∉ l.live) := by
      rw [← h.free f hf, isFree_iff h.exact.words, hbit]
      simp
    rw [heq]
    constructor
    · exact fun hgood hlow => absurd (h.live f (hgood.1.mp rfl)).2.1 (not_le.mpr hlow)
    intro hguard
    have hlive : f ∈ l.live := by
      by_contra hlive
      exact hfree ⟨not_lt.mp fun hlow => absurd (hguard hlow) (not_le.mpr hf), hlive⟩
    exact ⟨iff_of_true rfl hlive, fun _ => (h.live f hlive).2.2⟩

lemma step (hend : reservedEnd < usizeBound) {e : SingleEvent}
    (hguard : Cautious reservedEnd l e) : Balanced reservedEnd ((ledger reservedEnd).step l e) := by
  cases e with
  | alloc =>
    rcases allocFrame_step h.exact with ⟨_, heq⟩ | ⟨f, hok, hfree, hafter⟩
    · simpa only [ledger, heq] using h
    have hcall : l.alloc.allocFrame = (.ok f, l.alloc.allocFrame.2) := Prod.ext hok rfl
    have hstep : (ledger reservedEnd).step l .alloc = ⟨l.alloc.allocFrame.2, f :: l.live⟩ := by
      simp only [ledger]
      rw [hcall]
    have hf := (isFree_iff_bit.mp hfree).1
    have hfirst := ((h.free f hf).mp hfree).1
    have hopen := ((h.accounted_iff hend .alloc).mpr hguard) f hok
    rw [hstep]
    refine ⟨h.exact.allocFrame, fun g hg => ?_, fun g hg => ?_⟩
    · rw [allocFrame_totalFrames] at hg
      rw [hafter, h.free g hg, mem_cons]
      tauto
    rw [allocFrame_totalFrames]
    rcases mem_cons.mp hg with rfl | hg
    · exact ⟨hf, hfirst, hopen⟩
    · exact h.live g hg
  | free f =>
    have hsame : ∀ {failure}, l.alloc.freeFrame f = (.error failure, l.alloc) →
        Balanced reservedEnd ((ledger reservedEnd).step l (.free f)) := by
      intro failure heq
      simpa only [ledger, heq] using h
    rcases freeFrame_cases h.exact.words f with ⟨_, heq⟩ | ⟨_, heq⟩ | ⟨hf, hbit, heq⟩
    · exact hsame heq
    · exact hsame heq
    have hstep : (ledger reservedEnd).step l (.free f) =
        ⟨l.alloc.release f, l.live.filter (· ≠ f)⟩ := by
      simp only [ledger, heq]
    have hfirst := not_lt.mp fun hlow => absurd (hguard hlow) (not_le.mpr hf)
    rw [hstep]
    refine ⟨h.exact.release hf hbit, fun g hg => ?_, fun g hg => ?_⟩
    · rw [(release_fields _ f).1] at hg
      rw [isFree_release h.exact.words hf, h.free g hg]
      by_cases heq : g = f <;> simp [heq, hfirst]
    rw [(release_fields _ f).1]
    exact h.live g (mem_of_mem_filter hg)

end Balanced

/-- Along a run after `init` the frames that are accepted are those that are out exactly if no
call frees a frame that `init` kept back and none allocates one after an `init` whose rounding
wrapped. -/
theorem only_handed_out_freed_iff {reservedEnd : Nat} (hend : reservedEnd < usizeBound)
  {l : Ledger} (hl : (ledger reservedEnd).init l) (events : List SingleEvent) :
  (∀ p ∈ (ledger reservedEnd).history l events, Accounted reservedEnd p.1 p.2) ↔
    ∀ p ∈ (ledger reservedEnd).history l events, Cautious reservedEnd p.1 p.2 :=
  Machine.history_all_iff (Balanced reservedEnd) (fun _ e _ h => h.accounted_iff hend e)
    (fun _ _ _ h hguard => h.step hend hguard) (balanced_init hl)

def freshLedger : Ledger := ⟨(new.init 0 16384 0).2, []⟩

lemma freshLedger_init : (ledger 0).init freshLedger := ⟨new, 0, 16384, by decide +kernel, rfl⟩

theorem only_handed_out_freed_once :
  Accounted 0 ((ledger 0).step freshLedger .alloc) (.free 3) := by
  refine (only_handed_out_freed_iff (by decide) freshLedger_init [.alloc, .free 3]).mpr ?_
    (_, .free 3) (mem_cons_of_mem _ (mem_singleton.mpr rfl))
  intro p hp
  rcases mem_cons.mp hp with rfl | hp
  · exact .inl (by decide)
  rw [mem_singleton.mp hp]
  exact fun hlow => absurd hlow (by decide)

/-- Frame 0, which is reserved and was never returned, is freed and then allocated. -/
theorem reserved_frame_freed : (freshLedger.alloc.freeFrame 0).1 = .ok () ∧
    ((ledger 0).step freshLedger (.free 0)).alloc.allocFrame.1 = .ok 0 := by
  decide +kernel

end Aeos.Frame
