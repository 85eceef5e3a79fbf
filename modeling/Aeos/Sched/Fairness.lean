/-
# No ready task is passed over

The measure is the cyclic gap from the current slot to the waiting one: every dispatch goes to
the first READY slot after the current one, so it either picks the waiting slot or comes
strictly closer to it.
-/

import Aeos.Sched.OneRunner

namespace Aeos.Sched

open Lib List Option

/-- The dispatches performed along a list of events. -/
def dispatches (s : State) : List Event → List Dispatch
  | [] => []
  | e :: es => (react s e).2.toList ++ dispatches (react s e).1 es

def gapTo (v : View) (w : Nat) : Nat :=
  match v.cur with
  | some c => cyclicGap maxTasks c w
  | none => 0

lemma gapTo_of_cur {v : View} {c : Nat} (hcur : v.cur = some c) (w : Nat) :
  gapTo v w = cyclicGap maxTasks c w := by
  simp [gapTo, hcur]

lemma gap_decreases_of_next {v v' : View} {c n w : Nat} (hc : c < maxTasks)
  (hw : w < maxTasks) (hready : v.st w = .ready) (hnext : v.next c = some n)
  (hne : n ≠ w) (hv' : v' = v.handTo n) :
  v'.st w = .ready ∧ gapTo v' w < cyclicGap maxTasks c w := by
  subst v'
  refine ⟨?_, ?_⟩
  · rw [View.handTo_st_of_ne v hne.symm]
    exact hready
  · exact cyclicGap_decreases hc hw hnext (by simpa using hready) hne.symm

/-- A READY slot that is not dispatched stays READY, and the number of dispatches plus the
remaining gap does not grow. -/
lemma gap_effect {s : State} {e : Event} {v : View} {d : Option Dispatch} {w : Nat}
  (hinv : OneRunner s.view) (heffect : Effect s e v d) (hw : w < maxTasks)
  (hready : s.view.st w = .ready) (hother : ∀ x ∈ d.toList, x.next ≠ w) :
  v.st w = .ready ∧ d.toList.length + gapTo v w ≤ gapTo s.view w := by
  obtain ⟨c, hcur, hc, _, hstate⟩ := hinv
  have hgap := gapTo_of_cur hcur w
  -- The waiting slot is not the current one, which is RUNNING or FINISHED.
  have hcw : w ≠ c := by
    rintro rfl
    rcases hstate with h | h
    · rw [hready] at h
      cases h
    rw [Parked, hready] at h
    cases h.1
  cases heffect with
  | quiet => exact ⟨hready, by simp⟩
  | spawned slot hinto hlt hfree =>
    refine ⟨?_, by simp [gapTo]⟩
    rw [View.set_st_of_ne]
    · exact hready
    rintro rfl
    rcases hfree with h | h <;> rw [hready] at h <;> cases h
  | handed c' n hcur' hnext =>
    obtain rfl : c = c' := some.inj (hcur.symm.trans hcur')
    have hne : n ≠ w := hother ⟨c, n⟩ (by simp)
    have hgaplt : gapTo ((s.view.set c .ready).handTo n) w < cyclicGap maxTasks c w := by
      exact cyclicGap_decreases hc hw hnext (by simpa using hready) hne.symm
    refine ⟨?_, ?_⟩
    · rw [View.handTo_st_of_ne _ hne.symm, View.set_st_of_ne _ _ hcw]
      exact hready
    simp only [toList_some, length_singleton]
    omega
  | retired c' n hwhy hcur' hnext =>
    obtain rfl : c = c' := some.inj (hcur.symm.trans hcur')
    have hready' : (s.view.set c .finished).st w = .ready := by
      rw [View.set_st_of_ne _ _ hcw]
      exact hready
    obtain ⟨hstill, hlt⟩ := gap_decreases_of_next hc hw hready' hnext
      (hother ⟨c, n⟩ (by simp)) rfl
    refine ⟨hstill, ?_⟩
    simp only [toList_some, length_singleton]
    omega
  | parked c' hwhy hcur' hnone =>
    obtain rfl : c = c' := some.inj (hcur.symm.trans hcur')
    refine ⟨?_, by simp [gapTo]⟩
    rw [View.set_st_of_ne _ _ hcw]
    exact hready

lemma gap_run {s t : State} {es : List Event} {w : Nat} (hs : machine.Reachable s)
  (hrun : machine.Run s es t) (hw : w < maxTasks) (hready : s.view.st w = .ready)
  (hothers : ∀ d ∈ dispatches s es, d.next ≠ w) :
  t.view.st w = .ready ∧ (dispatches s es).length + gapTo t.view w ≤ gapTo s.view w := by
  induction hrun with
  | nil s => exact ⟨hready, by simp [dispatches]⟩
  | @cons s t e es hadmits hrest ih =>
    have heffect := react_effect s e hadmits
    obtain ⟨hready', hstep⟩ := gap_effect (oneRunner_of_reachable hs) heffect hw hready
      fun d hd => hothers d (mem_append_left _ hd)
    obtain ⟨hlast, hbound⟩ := ih (hs.step hadmits) hready'
      fun d hd => hothers d (mem_append_right _ hd)
    refine ⟨hlast, ?_⟩
    simp only [dispatches, length_append]
    have hview : (machine.step s e).view = (react s e).1.view := rfl
    rw [hview] at hbound
    have hdispatches : dispatches (machine.step s e) es = dispatches (react s e).1 es := rfl
    rw [hdispatches] at hbound
    omega

/-- Along every continuation that has not dispatched a READY slot `w` yet, `w` is still READY and
fewer than `MAX_TASKS` dispatches have gone to other slots. -/
theorem ready_slot_not_passed_over {s t : State} {es : List Event} {w : Nat}
  (hs : machine.Reachable s) (hw : w < maxTasks) (hready : (s.tasks w).state = .ready)
  (hrun : machine.Run s es t) (hothers : ∀ d ∈ dispatches s es, d.next ≠ w) :
  (t.tasks w).state = .ready ∧ (dispatches s es).length < maxTasks := by
  obtain ⟨hlast, hbound⟩ := gap_run hs hrun hw hready hothers
  refine ⟨hlast, ?_⟩
  obtain ⟨c, hcur, _, _, hstate⟩ := oneRunner_of_reachable hs
  have hne : c ≠ w := by
    rintro rfl
    have hview : s.view.st c = .ready := hready
    rcases hstate with h | h
    · rw [hview] at h
      cases h
    rw [Parked, hview] at h
    cases h.1
  have hgap := gapTo_of_cur hcur w
  have hlt := cyclicGap_lt hw hne
  omega

/-- Two spawns after boot, then a yield to slot `1`: slot `2` still waits. -/
theorem ready_slot_not_passed_over_boot :
  let s := machine.step (machine.step bootState (.spawn [] 1 1 256)) (.spawn [] 1 1 256)
  dispatches s [.yield ⟨0, 0, 0⟩] = [⟨0, 1⟩] ∧
    ((machine.step s (.yield ⟨0, 0, 0⟩)).tasks 2).state = .ready ∧
    (dispatches s [.yield ⟨0, 0, 0⟩]).length < maxTasks := by
  intro s
  have hfirst : machine.enabled bootState (.spawn [] 1 1 256) := ⟨0, rfl, rfl⟩
  have hsecond : machine.enabled (machine.step bootState (.spawn [] 1 1 256))
      (.spawn [] 1 1 256) := ⟨0, rfl, rfl⟩
  have hs := (reachable_bootState.step hfirst).step hsecond
  have hrun : machine.Run s [.yield ⟨0, 0, 0⟩] (machine.step s (.yield ⟨0, 0, 0⟩)) :=
    .single ⟨0, rfl, rfl⟩
  exact ⟨by decide, ready_slot_not_passed_over hs (by decide) (by decide) hrun (by decide)⟩

end Aeos.Sched
