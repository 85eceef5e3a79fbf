/-
# Programs that only read

A program over a memory it does not change, run together with the list of addresses it reads.
`Inside P` says that a run reads only addresses in `P`.
-/

import Mathlib.Data.List.Basic
import Mathlib.Logic.Relation

namespace Aeos.Lib

/-- A program that reads a memory of `B`s at addresses `A`: its result, and what it read. -/
def Reads (A B α : Type) : Type := (A → B) → α × List A

namespace Reads

variable {A B α β : Type}

def value (x : Reads A B α) (m : A → B) : α := (x m).1

/-- The addresses read, in order. -/
def touched (x : Reads A B α) (m : A → B) : List A := (x m).2

instance : Monad (Reads A B) where
  pure a := fun _ => (a, [])
  bind x f := fun m => ((f (x m).1 m).1, (x m).2 ++ (f (x m).1 m).2)

def read (a : A) : Reads A B B := fun m => (m a, [a])

/-- `x && y`, with `y` run only if it matters. -/
def both (x y : Reads A B Bool) : Reads A B Bool :=
  x >>= fun c => if c then y else pure false

/-- `x || y`, with `y` run only if it matters. -/
def either (x y : Reads A B Bool) : Reads A B Bool :=
  x >>= fun c => if c then pure true else y

section
variable (m : A → B)

@[simp]
lemma value_pure (a : α) : (pure a : Reads A B α).value m = a := rfl

@[simp]
lemma value_bind (x : Reads A B α) (f : α → Reads A B β) :
  (x >>= f).value m = (f (x.value m)).value m := rfl

@[simp]
lemma value_read (a : A) : (read a : Reads A B B).value m = m a := rfl

@[simp]
lemma value_ite {c : Prop} [Decidable c] (x y : Reads A B α) :
  (if c then x else y).value m = if c then x.value m else y.value m := by
  split <;> rfl

@[simp]
lemma value_both (x y : Reads A B Bool) : (both x y).value m = (x.value m && y.value m) := by
  rw [both, value_bind, value_ite]
  cases x.value m <;> rfl

@[simp]
lemma value_either (x y : Reads A B Bool) : (either x y).value m = (x.value m || y.value m) := by
  rw [either, value_bind, value_ite]
  cases x.value m <;> rfl

end

/-! ## Staying inside -/

/-- Every address the run reads is in `P`. -/
def Inside (P : A → Prop) (x : Reads A B α) (m : A → B) : Prop := ∀ a ∈ x.touched m, P a

section
variable {P : A → Prop} {m : A → B}

@[simp]
lemma inside_pure (a : α) : Inside P (pure a : Reads A B α) m := by
  intro a ha
  cases ha

@[simp]
lemma inside_bind (x : Reads A B α) (f : α → Reads A B β) :
  Inside P (x >>= f) m ↔ Inside P x m ∧ Inside P (f (x.value m)) m := by
  show (∀ a ∈ (x m).2 ++ (f (x m).1 m).2, P a) ↔ _
  simp only [List.mem_append, or_imp, forall_and]
  rfl

@[simp]
lemma inside_read (a : A) : Inside P (read a : Reads A B B) m ↔ P a := by
  show (∀ b ∈ [a], P b) ↔ _
  simp

lemma inside_ite {c : Prop} [Decidable c] {x y : Reads A B α} :
  Inside P (if c then x else y) m ↔ (c → Inside P x m) ∧ (¬ c → Inside P y m) := by
  by_cases hc : c
  · simp [hc]
  · simp [hc]

lemma inside_both (x y : Reads A B Bool) :
  Inside P (both x y) m ↔ Inside P x m ∧ (x.value m = true → Inside P y m) := by
  rw [both, inside_bind, inside_ite]
  simp

lemma inside_either (x y : Reads A B Bool) :
  Inside P (either x y) m ↔ Inside P x m ∧ (x.value m = false → Inside P y m) := by
  rw [either, inside_bind, inside_ite]
  simp

end

section
variable {W : Type}

/-- A turn goes on with new variables, or ends the loop. Without a result if the turns run out. -/
def loop (turn : W → Reads A B (W ⊕ α)) : Nat → W → Reads A B (Option α)
  | 0, _ => pure none
  | turns + 1, w => turn w >>= Sum.elim (loop turn turns) fun a => pure (some a)

variable (turn : W → Reads A B (W ⊕ α)) (m : A → B)

/-- One turn leads from `w` to `w'`. -/
def Next (w w' : W) : Prop := (turn w).value m = .inl w'

/-- The loop comes to `w'` from `w`. -/
def Visits : W → W → Prop := Relation.ReflTransGen (Next turn m)

variable {turn m} {w : W}

section
variable {measure : W → Nat} (hmeasure : ∀ w w', Next turn m w w' → measure w' < measure w)
include hmeasure

lemma loop_isSome {turns : Nat} (hturns : measure w < turns) :
  ((loop turn turns w).value m).isSome = true := by
  induction turns generalizing w with
  | zero => omega
  | succ turns ih =>
    rw [loop, value_bind]
    cases hturn : (turn w).value m with
    | inl w' =>
      have hless := hmeasure w w' hturn
      exact ih (by omega)
    | inr a => rfl

lemma inside_loop {P : A → Prop} {turns : Nat} (hturns : measure w < turns) :
  Inside P (loop turn turns w) m ↔ ∀ w', Visits turn m w w' → Inside P (turn w') m := by
  induction turns generalizing w with
  | zero => omega
  | succ turns ih =>
    rw [loop, inside_bind]
    constructor
    · rintro ⟨hfirst, hrest⟩ w' hvisits
      rcases Relation.ReflTransGen.cases_head hvisits with rfl | ⟨w₁, hnext, hvisits⟩
      · exact hfirst
      have hless := hmeasure w w₁ hnext
      rw [show (turn w).value m = .inl w₁ from hnext, Sum.elim_inl, ih (by omega)] at hrest
      exact hrest w' hvisits
    intro hall
    refine ⟨hall w .refl, ?_⟩
    cases hturn : (turn w).value m with
    | inl w₁ =>
      have hless := hmeasure w w₁ hturn
      rw [Sum.elim_inl, ih (by omega)]
      intro w' hvisits
      exact hall w' (.head hturn hvisits)
    | inr a => exact inside_pure _

end
end
end Reads
end Aeos.Lib
