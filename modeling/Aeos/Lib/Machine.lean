/-
# Event-driven machines

A machine reacts deterministically to labelled events. Whatever a real system leaves open (who
calls next, which request fails, where an interrupt lands) is put into the event, so a statement
about every run is a statement about every interleaving.
-/

import Mathlib.Logic.Basic

namespace Aeos.Lib

open List
universe u v

/-- A deterministic reaction to events, with the states it may start in and the
events each state admits. -/
structure Machine (State : Type u) (Event : Type v) where
  init : State → Prop
  enabled : State → Event → Prop
  step : State → Event → State

namespace Machine

variable {State : Type u} {Event : Type v} (M : Machine State Event)

/-- `M.Run s es t`: from `s`, the events `es` are admitted one after the other
and lead to `t`. -/
inductive Run : State → List Event → State → Prop
  | nil (s : State) : Run s [] s
  | cons {s t : State} {e : Event} {es : List Event} :
      M.enabled s e → Run (M.step s e) es t → Run s (e :: es) t

/-- Some run from an initial state ends here. -/
def Reachable (t : State) : Prop :=
  ∃ s es, M.init s ∧ M.Run s es t

/-- The same reactions, with every step that misses the guard forbidden. -/
def restrict (guard : State → Event → Prop) : Machine State Event where
  init := M.init
  enabled s e := M.enabled s e ∧ guard s e
  step := M.step

variable {M} {s t : State} {es : List Event}

lemma Run.append {r : State} {fs : List Event} (hfirst : M.Run s es t) (hsecond : M.Run t fs r) :
  M.Run s (es ++ fs) r := by
  induction hfirst with
  | nil => exact hsecond
  | cons henabled _ ih => exact .cons henabled (ih hsecond)

lemma Run.single {e : Event} (henabled : M.enabled s e) : M.Run s [e] (M.step s e) :=
  .cons henabled (.nil _)

lemma Run.invariant (Inv : State → Prop) (hstep : ∀ s e, Inv s → M.enabled s e → Inv (M.step s e))
  (hrun : M.Run s es t) (hs : Inv s) : Inv t := by
  induction hrun with
  | nil => exact hs
  | cons henabled _ ih => exact ih (hstep _ _ hs henabled)

lemma Run.invariant_of_mem (Inv : State → Prop)
  (hstep : ∀ s, ∀ e ∈ es, Inv s → M.enabled s e → Inv (M.step s e)) (hrun : M.Run s es t)
  (hs : Inv s) : Inv t := by
  induction hrun with
  | nil => exact hs
  | cons henabled _ ih =>
    apply ih
    · exact fun s e he => hstep s e (mem_cons_of_mem _ he)
    · exact hstep _ _ mem_cons_self hs henabled

variable (M) in
/-- Every event of the list is admitted where it occurs. -/
def admitsAll [∀ s e, Decidable (M.enabled s e)] (s : State) : List Event → Bool
  | [] => true
  | e :: es => decide (M.enabled s e) && admitsAll (M.step s e) es

lemma run_of_admitsAll [∀ s e, Decidable (M.enabled s e)] (s : State) (es : List Event)
  (hall : M.admitsAll s es = true) : M.Run s es (es.foldl M.step s) := by
  induction es generalizing s with
  | nil => exact .nil s
  | cons e es ih =>
    rw [admitsAll, Bool.and_eq_true, decide_eq_true_eq] at hall
    exact .cons hall.1 (ih _ hall.2)

lemma run_foldl (hall : ∀ s e, M.enabled s e) (s : State) (es : List Event) :
  M.Run s es (es.foldl M.step s) := by
  induction es generalizing s with
  | nil => exact .nil s
  | cons e es ih => exact .cons (hall s e) (ih _)

lemma reachable_of_init (hinit : M.init s) : M.Reachable s :=
  ⟨s, [], hinit, .nil s⟩

lemma Reachable.run (hs : M.Reachable s) (hrun : M.Run s es t) : M.Reachable t := by
  obtain ⟨s₀, es₀, hinit, hprior⟩ := hs
  exact ⟨s₀, es₀ ++ es, hinit, hprior.append hrun⟩

lemma Reachable.step {e : Event} (hs : M.Reachable s) (henabled : M.enabled s e) :
  M.Reachable (M.step s e) :=
  hs.run (Run.single henabled)

lemma Run.of_restrict {guard : State → Event → Prop} (hrun : (M.restrict guard).Run s es t) :
    M.Run s es t := by
  induction hrun with
  | nil => exact .nil _
  | cons henabled _ ih => exact .cons henabled.1 ih

lemma Run.restrict {guard : State → Event → Prop} (hrun : M.Run s es t)
    (hguard : ∀ s, ∀ e ∈ es, guard s e) : (M.restrict guard).Run s es t := by
  induction hrun with
  | nil => exact .nil _
  | @cons s t e es henabled _ ih =>
    exact .cons ⟨henabled, hguard s e mem_cons_self⟩
      (ih fun s e he => hguard s e (mem_cons_of_mem _ he))

/-- The invariant rule: true initially and kept by every admitted step. -/
lemma Reachable.invariant (Inv : State → Prop) (hinit : ∀ s, M.init s → Inv s)
  (hstep : ∀ s e, Inv s → M.enabled s e → Inv (M.step s e)) (ht : M.Reachable t) : Inv t := by
  obtain ⟨s, es, hs, hrun⟩ := ht
  exact hrun.invariant Inv hstep (hinit s hs)

variable (M) in
/-- The events of a run, each with the state it met. -/
def history (s : State) : List Event → List (State × Event)
  | [] => []
  | e :: es => (s, e) :: history (M.step s e) es

lemma Run.history_snoc (hrun : M.Run s es t) (e : Event) :
  M.history s (es ++ [e]) = M.history s es ++ [(t, e)] := by
  induction hrun with
  | nil => rfl
  | cons _ _ ih => exact congrArg _ ih

/-- Induction along a run from its start: what holds of the empty run and is kept by one more
event. -/
lemma Run.induction_snoc {P : List Event → State → Prop} (hnil : P [] s)
  (hsnoc : ∀ es t e, M.Run s es t → P es t → M.enabled t e → P (es ++ [e]) (M.step t e))
  (hrun : M.Run s es t) : P es t := by
  have hext : ∀ {t r : State} {fs : List Event}, M.Run t fs r → ∀ es, M.Run s es t → P es t →
      P (es ++ fs) r := by
    intro t r fs hrest
    induction hrest with
    | nil =>
      intro es _ hes
      rwa [append_nil]
    | @cons t r e fs henabled _ ih =>
      intro es hprior hes
      have hone := ih (es ++ [e]) (hprior.append (Run.single henabled))
        (hsnoc es t e hprior hes henabled)
      rwa [append_assoc] at hone
  exact hext hrun [] (.nil s) hnil

/-- Where a step is good exactly when it is guarded, the steps of a run are all good exactly when
they are all guarded. -/
lemma history_all_iff {good guard : State → Event → Prop} (Inv : State → Prop)
  (hiff : ∀ s, ∀ e ∈ es, Inv s → (good s e ↔ guard s e))
  (hkeep : ∀ s, ∀ e ∈ es, Inv s → guard s e → Inv (M.step s e)) (hs : Inv s) :
  (∀ p ∈ M.history s es, good p.1 p.2) ↔ ∀ p ∈ M.history s es, guard p.1 p.2 := by
  induction es generalizing s with
  | nil => simp [history]
  | cons e es ih =>
    simp only [history, forall_mem_cons]
    rw [hiff s e mem_cons_self hs]
    apply and_congr_right
    intro hguard
    exact ih (fun s e he => hiff s e (mem_cons_of_mem _ he))
      (fun s e he => hkeep s e (mem_cons_of_mem _ he))
      (hkeep s e mem_cons_self hs hguard)

/-- The same for the steps of a run, which are all admitted. -/
lemma Run.history_all_iff {good guard : State → Event → Prop} (Inv : State → Prop)
    (hiff : ∀ s e, Inv s → M.enabled s e → (good s e ↔ guard s e))
    (hkeep : ∀ s e, Inv s → M.enabled s e → guard s e → Inv (M.step s e)) (hrun : M.Run s es t)
    (hs : Inv s) :
    (∀ p ∈ M.history s es, good p.1 p.2) ↔ ∀ p ∈ M.history s es, guard p.1 p.2 := by
  induction hrun with
  | nil => simp [history]
  | @cons s t e es henabled _ ih =>
    simp only [history, forall_mem_cons]
    rw [hiff s e hs henabled]
    exact and_congr_right fun hguard => ih (hkeep s e hs henabled hguard)

variable (M) in
/-- `P` holds in every state that the events lead through. -/
def Throughout (P : State → Prop) (s : State) : List Event → Prop
  | [] => P s
  | e :: es => P s ∧ Throughout P (M.step s e) es

lemma Throughout.start {P : State → Prop} (h : M.Throughout P s es) : P s := by
  cases es with
  | nil => exact h
  | cons => exact h.1

/-- When the guarded steps keep an invariant that implies `P`, and every other step breaks `P`,
then `P` holds throughout exactly when the steps are guarded. -/
lemma Run.throughout_iff {guard : State → Event → Prop} {P Inv : State → Prop}
  (hinv : ∀ s, Inv s → P s) (hkeep : ∀ s e, Inv s → M.enabled s e → guard s e → Inv (M.step s e))
  (hbreak : ∀ s e, Inv s → M.enabled s e → ¬ guard s e → ¬ P (M.step s e)) (hrun : M.Run s es t)
  (hs : Inv s) : M.Throughout P s es ↔ (M.restrict guard).Run s es t := by
  induction hrun with
  | nil s => exact iff_of_true (hinv s hs) (.nil s)
  | @cons s t e es henabled hrest ih =>
    by_cases hguard : guard s e
    · have hiff := ih (hkeep s e hs henabled hguard)
      refine ⟨fun h => .cons ⟨henabled, hguard⟩ (hiff.mp h.2), fun h => ⟨hinv s hs, hiff.mpr ?_⟩⟩
      cases h with
      | cons _ hrest => exact hrest
    refine iff_of_false (fun h => ?_) (fun h => ?_)
    · exact hbreak s e hs henabled hguard h.2.start
    cases h with
    | cons hboth _ => exact hguard hboth.2

end Machine
end Aeos.Lib
