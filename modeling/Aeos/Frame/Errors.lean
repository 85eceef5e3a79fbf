/-
# Calls that return `Err`

Most calls of the allocator check everything before they change anything. Two do not.
-/

import Aeos.Frame.Contiguous

namespace Aeos.Frame

open FrameAllocator List

def failed {α : Type} : Except Failure α → Option Failure
  | .ok _ => none
  | .error failure => some failure

def outcome (a : FrameAllocator) : Event → Option Failure
  | .allocFrame => failed a.allocFrame.1
  | .allocFrames count => failed (a.allocFrames count).1
  | .freeFrame frame => failed (a.freeFrame frame).1
  | .freeFrames frame count => failed (a.freeFrames frame count).1

inductive Call
  | init (physBase physSize reservedEnd : Nat)
  | other (e : Event)

def Call.Refused (a : FrameAllocator) : Call → Prop
  | .init physBase physSize reservedEnd => (a.init physBase physSize reservedEnd).1 ≠ .ok ()
  | .other e => ∃ error, outcome a e = some (.err error)

def Call.left (a : FrameAllocator) : Call → FrameAllocator
  | .init physBase physSize reservedEnd => (a.init physBase physSize reservedEnd).2
  | .other e => called a e

def StaysInside (a : FrameAllocator) : Prop :=
  ∀ (events : List Event) (e : Event), outcome (events.foldl called a) e ≠ some .panic

/-- The free frames and the two counters are the same, and nothing goes wrong later. -/
def Harmless (a b : FrameAllocator) : Prop :=
  b.freeSet = a.freeSet ∧ b.freeCount = a.freeCount ∧ b.totalFrames = a.totalFrames ∧ StaysInside b

structure Bounded {α : Type} (a : FrameAllocator) (r : Except Failure α × FrameAllocator) :
    Prop where
  total : r.2.totalFrames = a.totalFrames
  inside : r.1 = .error .panic → bitmapWords < a.words

structure Checked {α : Type} (a : FrameAllocator) (r : Except Failure α × FrameAllocator) : Prop
    extends Bounded a r where
  unchanged : ∀ failure, r.1 = .error failure → r.2 = a

variable {a : FrameAllocator} {f g count : Nat}

variable {α : Type} {failure : Failure}

lemma checked_error (hinside : failure = .panic → bitmapWords < a.words) :
  Checked a ((.error failure, a) : Except Failure α × FrameAllocator) where
  total := rfl
  inside hpanic := hinside (Except.error.inj hpanic)
  unchanged _ _ := rfl

lemma checked_ok {value : α} {b : FrameAllocator} (htotal : b.totalFrames = a.totalFrames) :
  Checked a ((.ok value, b) : Except Failure α × FrameAllocator) where
  total := htotal
  inside := nofun
  unchanged := nofun

lemma checked_allocFrame (a : FrameAllocator) : Checked a a.allocFrame := by
  have htotal := a.allocFrame_totalFrames
  unfold allocFrame at htotal ⊢
  dsimp only at htotal ⊢
  split_ifs at htotal ⊢
  · exact checked_ok htotal
  · exact checked_ok htotal
  cases hfind : (List.range a.words).find? fun w => bitmapWords ≤ w ∨ a.bitmap w ≠ 0#64 with
  | none => exact checked_error nofun
  | some w =>
    simp only [hfind] at htotal
    have hw := mem_range.mp (List.mem_of_find?_eq_some hfind)
    dsimp only
    split_ifs at htotal ⊢ with hpast
    · exact checked_error fun _ => hpast.trans_lt hw
    · exact checked_error nofun
    · exact checked_ok htotal

lemma checked_freeFrame (a : FrameAllocator) (f : Nat) : Checked a (a.freeFrame f) := by
  have htotal := a.freeFrame_totalFrames f
  unfold freeFrame at htotal ⊢
  split_ifs at htotal ⊢
  · exact checked_error nofun
  · exact checked_error nofun
  · exact checked_ok htotal
  · exact checked_ok htotal

lemma contiguous_inside (start : Nat) (hnone : a.contiguous start count = none) :
  bitmapWords < a.words := by
  unfold contiguous at hnone
  split at hnone
  · cases hnone
  split_ifs at hnone
  omega

lemma findRun_inside : ∀ {ws : List Nat}, (∀ w ∈ ws, w < a.words) →
  a.findRun count ws = .error .panic → bitmapWords < a.words := by
  intro ws
  induction ws with
  | nil => exact fun _ hpanic => nomatch hpanic
  | cons w ws ih =>
    intro hws hpanic
    have hw := hws w mem_cons_self
    have ih := ih fun w hw => hws w (mem_cons_of_mem _ hw)
    rw [findRun] at hpanic
    dsimp only at hpanic
    split_ifs at hpanic
    · omega
    · exact ih hpanic
    · exact ih hpanic
    cases hrun : a.contiguous (w * 64 + (a.bitmap w).ctz.toNat) count with
    | none => exact contiguous_inside _ hrun
    | some free =>
      rw [hrun] at hpanic
      cases free with
      | true => cases hpanic
      | false => exact ih hpanic

lemma checked_allocFrames (a : FrameAllocator) (count : Nat) : Checked a (a.allocFrames count) := by
  unfold allocFrames
  split_ifs
  · exact checked_error nofun
  · exact checked_allocFrame a
  cases hfound : a.findRun count (List.range a.words) with
  | error failure =>
    refine checked_error fun hpanic => ?_
    exact findRun_inside (fun w hw => mem_range.mp hw) (hpanic ▸ hfound)
  | ok start =>
    refine checked_ok ?_
    rw [countDown_totalFrames, foldl_clearBit]

lemma bounded_freeEach (frames : List Nat) :
  ∀ a : FrameAllocator, Bounded a (a.freeEach frames) := by
  induction frames with
  | nil => exact fun a => (checked_ok rfl).toBounded
  | cons f frames ih =>
    intro a
    have hfirst := (checked_freeFrame a f).toBounded
    rw [freeEach]
    generalize a.freeFrame f = r at hfirst ⊢
    obtain ⟨failure | value, b⟩ := r
    · exact hfirst
    have hrest := ih b
    refine ⟨hrest.total.trans hfirst.total, fun hpanic => ?_⟩
    have hinside := hrest.inside hpanic
    rwa [words, hfirst.total] at hinside

lemma failed_eq_some {r : Except Failure α} : failed r = some failure ↔ r = .error failure := by
  cases r <;> simp [failed]

lemma outcome_inside {e : Event} (hpanic : outcome a e = some .panic) : bitmapWords < a.words := by
  cases e with
  | allocFrame => exact (checked_allocFrame a).inside (failed_eq_some.mp hpanic)
  | allocFrames count => exact (checked_allocFrames a count).inside (failed_eq_some.mp hpanic)
  | freeFrame frame => exact (checked_freeFrame a frame).inside (failed_eq_some.mp hpanic)
  | freeFrames frame count => exact (bounded_freeEach _ a).inside (failed_eq_some.mp hpanic)

lemma called_totalFrames (a : FrameAllocator) (e : Event) :
  (called a e).totalFrames = a.totalFrames := by
  cases e with
  | allocFrame => exact (checked_allocFrame a).total
  | allocFrames count => exact (checked_allocFrames a count).total
  | freeFrame frame => exact (checked_freeFrame a frame).total
  | freeFrames frame count => exact (bounded_freeEach _ a).total

lemma findRun_beyond (hcount : 64 * bitmapWords < count) :
  ∀ {ws : List Nat}, (∃ w ∈ ws, bitmapWords ≤ w) → a.findRun count ws = .error .panic := by
  have hlong : ∀ start, a.contiguous start count ≠ some true := by
    intro start hrun
    unfold contiguous at hrun
    split at hrun
    · next hfind =>
      have hlast := List.find?_range_eq_none.mp hfind (64 * bitmapWords) hcount
      have hpast : bitmapWords ≤ (start + 64 * bitmapWords) / 64 := by omega
      simp [hpast] at hlast
    · split_ifs at hrun <;> cases hrun
  intro ws
  induction ws with
  | nil => exact fun ⟨w, hw, _⟩ => nomatch hw
  | cons k ws ih =>
    rintro ⟨w, hw, hpast⟩
    rw [findRun]
    dsimp only
    by_cases hk : bitmapWords ≤ k
    · rw [if_pos hk]
    have hrest := ih ⟨w, (mem_cons.mp hw).resolve_left fun heq => hk (heq ▸ hpast), hpast⟩
    split_ifs
    · exact hrest
    · exact hrest
    cases hrun : a.contiguous (k * 64 + (a.bitmap k).ctz.toNat) count with
    | none => rfl
    | some free =>
      cases free with
      | true => exact absurd hrun (hlong _)
      | false => exact hrest

/-- Only the number of frames decides whether a call can leave the bitmap, and no call
but `init` changes it. -/
lemma staysInside_iff : StaysInside a ↔ a.words ≤ bitmapWords := by
  constructor
  · intro hinside
    by_contra hmany
    refine hinside [] (.allocFrames (64 * bitmapWords + 1)) (failed_eq_some.mpr ?_)
    have hfound := findRun_beyond (a := a) (Nat.lt_succ_self (64 * bitmapWords))
      ⟨bitmapWords, mem_range.mpr (not_le.mp hmany), le_rfl⟩
    rw [foldl_nil, allocFrames, if_neg (by omega), if_neg (by decide), hfound]
  intro hwords events
  have htotal : (events.foldl called a).totalFrames = a.totalFrames := by
    induction events generalizing a with
    | nil => rfl
    | cons e events ih =>
      rw [foldl_cons, ih, called_totalFrames]
      rwa [words, called_totalFrames]
  intro e hpanic
  have hmany := outcome_inside hpanic
  rw [words, htotal] at hmany
  exact absurd hwords (not_le.mpr hmany)

/-! ## Refused calls -/

def Call.Careful (a : FrameAllocator) : Call → Prop
  | .init _ _ _ => False
  | .other (.freeFrames frame _) =>
    a.words ≤ bitmapWords ∧ (a.freeFrame (frame % usizeBound)).1 ≠ .ok ()
  | .other _ => a.words ≤ bitmapWords

lemma harmless_self_iff : Harmless a a ↔ a.words ≤ bitmapWords := by
  rw [Harmless, staysInside_iff]
  simp

lemma isFree_freeEach (frames : List Nat) : ∀ {a : FrameAllocator}, a.words ≤ bitmapWords →
  a.isFree g = true → (a.freeEach frames).2.isFree g = true := by
  induction frames with
  | nil => exact fun _ hfree => hfree
  | cons f frames ih =>
    intro a hwords hfree
    rw [freeEach]
    rcases freeFrame_cases hwords f with ⟨_, heq⟩ | ⟨_, heq⟩ | ⟨hf, _, heq⟩
    · rwa [heq]
    · rwa [heq]
    rw [heq]
    exact ih ((release_words a f).trans_le hwords) ((isFree_release hwords hf g).mpr (.inr hfree))

lemma harmless_freeEach_iff {frames : List Nat} : Harmless a (a.freeEach (f :: frames)).2 ↔
    a.words ≤ bitmapWords ∧ (a.freeFrame f).1 ≠ .ok () := by
  have htotal := (bounded_freeEach (f :: frames) a).total
  have hinside : Harmless a (a.freeEach (f :: frames)).2 → a.words ≤ bitmapWords := by
    intro h
    have hwords := staysInside_iff.mp h.2.2.2
    rwa [words, htotal] at hwords
  constructor
  · refine fun h => ⟨hinside h, fun hok => ?_⟩
    have hwords := hinside h
    rcases freeFrame_cases hwords f with ⟨_, heq⟩ | ⟨_, heq⟩ | ⟨hf, hbit, heq⟩
    · simp [heq] at hok
    · simp [heq] at hok
    have hfree : (a.freeEach (f :: frames)).2.isFree f = true := by
      rw [freeEach, heq]
      exact isFree_freeEach frames ((release_words a f).trans_le hwords)
        ((isFree_release hwords hf f).mpr (.inl rfl))
    rw [← mem_freeSet_iff, h.1, mem_freeSet hwords, hbit] at hfree
    exact absurd hfree.2 Bool.false_ne_true
  rintro ⟨hwords, hrefused⟩
  have hcall : (a.freeEach (f :: frames)).2 = a := by
    rw [freeEach]
    rcases freeFrame_cases hwords f with ⟨_, heq⟩ | ⟨_, heq⟩ | ⟨_, _, heq⟩
    · rw [heq]
    · rw [heq]
    · exact absurd (congrArg Prod.fst heq) hrefused
  rw [hcall]
  exact harmless_self_iff.mpr hwords

lemma freeFrames_succ (a : FrameAllocator) (frame count : Nat) :
  a.freeFrames frame (count + 1) = a.freeEach (frame % usizeBound ::
    (List.range count).map fun i => (frame + (i + 1)) % usizeBound) := by
  rw [freeFrames, range_succ_eq_map, map_cons, map_map]
  rfl

/-- A call that returns `Err` has no effect exactly if it is not `init`, the bitmap has a bit for
every frame, and `free_frames` refuses the first frame. -/
theorem refused_call_harmless_iff (a : FrameAllocator) (call : Call) (hrefused : call.Refused a) :
  Harmless a (call.left a) ↔ call.Careful a := by
  cases call with
  | init physBase physSize reservedEnd =>
    refine iff_of_false (fun h => ?_) id
    rcases init_cases a physBase physSize reservedEnd with ⟨hmany, heq⟩ | ⟨_, heq⟩
    · have hwords := staysInside_iff.mp h.2.2.2
      rw [Call.left, heq] at hwords
      exact absurd hwords (not_le.mpr hmany)
    · exact hrefused (congrArg Prod.fst heq)
  | other e =>
    obtain ⟨error, herror⟩ := hrefused
    have hsame : ∀ b, b = a → (Harmless a b ↔ a.words ≤ bitmapWords) := by
      rintro b rfl
      exact harmless_self_iff
    cases e with
    | allocFrame =>
      exact hsame _ ((checked_allocFrame a).unchanged _ (failed_eq_some.mp herror))
    | allocFrames count =>
      exact hsame _ ((checked_allocFrames a count).unchanged _ (failed_eq_some.mp herror))
    | freeFrame frame =>
      exact hsame _ ((checked_freeFrame a frame).unchanged _ (failed_eq_some.mp herror))
    | freeFrames frame count =>
      cases count with
      | zero => cases herror
      | succ count =>
        rw [Call.left, called, freeFrames_succ]
        exact harmless_freeEach_iff

def fourFrames : FrameAllocator := (new.init 0 16384 0).2

theorem refused_call_harmless_twice :
  Harmless fourFrames ((Call.other (.freeFrame 1)).left fourFrames) :=
  (refused_call_harmless_iff fourFrames (.other (.freeFrame 1))
    ⟨.notAllocated, by decide +kernel⟩).mpr (by unfold Call.Careful; decide +kernel)

/-- `free_frames(0, 2)` is refused because of frame 1, and has given back frame 0. After an `init`
with too much memory, `alloc_frame` indexes outside the bitmap. -/
theorem refused_calls_change_allocator :
  ((fourFrames.freeFrames 0 2).1 = .error (.err .notAllocated) ∧
      fourFrames.isFree 0 = false ∧ (fourFrames.freeFrames 0 2).2.isFree 0 = true) ∧
    (new.init 0 (2 ^ 30) 0).1 = .error .insufficientMemory ∧
      (new.init 0 (2 ^ 30) 0).2.allocFrame.1 = .error .panic := by
  decide +kernel

end Aeos.Frame
