/-
# Setting the weights of the mock kernel

`MockKernel.ai_set_weights` checks and stores its arguments one after the other, in the
variables of the module `ai_core`, with which all mock kernels decide.
-/

import Aeos.Sdk.Model
import Mathlib.Data.List.TakeWhile

namespace Aeos.Sdk

open Lib

structure WeightArgs where
  w1 : Option (List (List Int))
  b1 : Option (List Int)
  w2 : Option (List (List Int))
  b2 : Option (List Int)

def vector (n : Nat) (b : List Int) : Fin n → Int := fun i => b.getD i 0

def matrix (m n : Nat) (w : List (List Int)) : Fin m → Fin n → Int :=
  fun i j => (w.getD i []).getD j 0

def matrixShape (m n : Nat) (w : List (List Int)) : Bool :=
  w.length == m && w.all fun row => row.length == n

/-- A check that raises `ValueError`, and the assignment behind it. -/
structure Update where
  ok : Bool
  message : String
  store : Net 3 8 3 → Net 3 8 3

/-- `if x is not None: …`. -/
def Update.of {α : Type} (arg : Option α) (ok : α → Bool) (message : String)
  (store : α → Net 3 8 3 → Net 3 8 3) : Update :=
  match arg with
  | none => ⟨true, message, id⟩
  | some x => ⟨ok x, message, store x⟩

def updates (a : WeightArgs) : List Update :=
  [.of a.w1 (matrixShape 8 3) "w1 must be 8x3" fun w net => { net with w1 := matrix 8 3 w },
    .of a.b1 (fun b => b.length == 8) "b1 must have 8 elements"
      fun b net => { net with b1 := vector 8 b },
    .of a.w2 (matrixShape 3 8) "w2 must be 3x8" fun w net => { net with w2 := matrix 3 8 w },
    .of a.b2 (fun b => b.length == 3) "b2 must have 3 elements"
      fun b net => { net with b2 := vector 3 b }]

/-- The message of the exception, if there is one, and the variables as they are left. -/
def runUpdates (net : Net 3 8 3) : List Update → Option String × Net 3 8 3
  | [] => (none, net)
  | u :: us => if u.ok then runUpdates (u.store net) us else (some u.message, net)

def aiSetWeights (net : Net 3 8 3) (a : WeightArgs) : Option String × Net 3 8 3 :=
  runUpdates net (updates a)

def stored (net : Net 3 8 3) (us : List Update) : Net 3 8 3 :=
  us.foldl (fun net u => u.store net) net

/-- The network with the given weights in place of its own. -/
def WeightArgs.replace (a : WeightArgs) (net : Net 3 8 3) : Net 3 8 3 where
  w1 := a.w1.elim net.w1 (matrix 8 3)
  b1 := a.b1.elim net.b1 (vector 8)
  w2 := a.w2.elim net.w2 (matrix 3 8)
  b2 := a.b2.elim net.b2 (vector 3)

lemma stored_updates (net : Net 3 8 3) (a : WeightArgs) :
  stored net (updates a) = a.replace net := by
  obtain ⟨w1, b1, w2, b2⟩ := a
  cases w1 <;> cases b1 <;> cases w2 <;> cases b2 <;> rfl

/-- What is in front of the first fault is stored. -/
lemma runUpdates_eq (net : Net 3 8 3) (us : List Update) : runUpdates net us =
    ((us.find? fun u => !u.ok).map Update.message, stored net (us.takeWhile Update.ok)) := by
  induction us generalizing net with
  | nil => rfl
  | cons u us ih =>
    rw [runUpdates]
    cases hok : u.ok with
    | true =>
      rw [if_pos rfl, ih, List.takeWhile_cons_of_pos hok,
        List.find?_cons_of_neg (by rw [hok]; decide)]
      rfl
    | false =>
      rw [if_neg Bool.false_ne_true, List.takeWhile_cons_of_neg (by rw [hok]; decide),
        List.find?_cons_of_pos (by rw [hok]; decide)]
      rfl

/-- The weights that kernel `j` of a process with `n` mock kernels decides with: those of
the module. -/
def decidesWith {n : Nat} (net : Net 3 8 3) (_j : Fin n) : Net 3 8 3 := net

/-- A call on kernel `k` that raises changes no weight, and one that returns changes those given,
for `k` only. -/
def AllOrNothing {n : Nat} (k : Fin n) (net : Net 3 8 3) (a : WeightArgs) : Prop :=
  ((aiSetWeights net a).1 ≠ none →
    ∀ j : Fin n, decidesWith (aiSetWeights net a).2 j = decidesWith net j) ∧
  ((aiSetWeights net a).1 = none →
    decidesWith (aiSetWeights net a).2 k = a.replace (decidesWith net k) ∧
      ∀ j, j ≠ k → decidesWith (aiSetWeights net a).2 j = decidesWith net j)

/-- A call is all or nothing exactly if it returns and there is no other kernel or nothing to
change, or it raises and had stored only what was there already. -/
theorem set_weights_all_or_nothing_iff {n : Nat} (k : Fin n) (net : Net 3 8 3)
  (a : WeightArgs) : AllOrNothing k net a ↔
    if ∀ u ∈ updates a, u.ok = true then n = 1 ∨ a.replace net = net
    else stored net ((updates a).takeWhile Update.ok) = net := by
  rw [AllOrNothing, aiSetWeights, runUpdates_eq]
  simp only [decidesWith]
  split_ifs with hshapes
  · have hnone : ((updates a).find? fun u => !u.ok) = none := by
      rw [List.find?_eq_none]
      intro u hu
      rw [hshapes u hu]
      decide
    rw [hnone, List.takeWhile_eq_self_iff.mpr hshapes, stored_updates]
    constructor
    · intro h
      by_cases hone : n = 1
      · exact .inl hone
      have := Fin.nontrivial_iff_two_le.mpr (show 2 ≤ n by have := k.isLt; omega)
      obtain ⟨j, hj⟩ := exists_ne k
      exact .inr ((h.2 rfl).2 j hj)
    · refine fun h => ⟨fun hraised => absurd rfl hraised, fun _ => ⟨rfl, fun j hj => ?_⟩⟩
      rcases h with rfl | hsame
      · exact absurd (Subsingleton.elim j k) hj
      · exact hsame
  have hraised : ((updates a).find? fun u => !u.ok).map Update.message ≠ none := by
    rw [ne_eq, Option.map_eq_none_iff, List.find?_eq_none]
    intro hall
    exact hshapes fun u hu => by simpa using hall u hu
  constructor
  · exact fun h => h.1 hraised k
  · exact fun h => ⟨fun _ _ => h, fun hnone => absurd hnone hraised⟩

/-- The second argument raises, and the first one has been stored. -/
theorem raising_call_changes_weights :
  let a : WeightArgs := ⟨some (List.replicate 8 [1, 0, 0]), some [], none, none⟩
  (aiSetWeights defaultNet a).1 = some "b1 must have 8 elements" ∧
    defaultNet.w1 0 0 = 0 ∧ (aiSetWeights defaultNet a).2.w1 0 0 = 1 := by
  decide

end Aeos.Sdk
