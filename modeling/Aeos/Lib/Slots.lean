/-
# Tables of slots

A fixed number of places, each empty or holding one value. What a table holds is
a multiset: filling a free slot adds a value, clearing a used one takes it away,
and in which slot a value sits does not matter.
-/

import Mathlib.Data.Fintype.Card

namespace Aeos.Lib

open Finset Function

section
variable {n : Nat} {α : Type*}

abbrev Slots (n : Nat) (α : Type*) := Fin n → Option α

namespace Slots

/-- The first slot that satisfies a test. -/
def position (t : Slots n α) (test : Option α → Bool) : Option (Fin n) :=
  Fin.find? fun i => test (t i)

def contents (t : Slots n α) : Multiset α := Finset.univ.val.filterMap t

def occupied (t : Slots n α) : Nat := (Finset.univ.filter fun i => (t i).isSome).card

variable {t : Slots n α} {i : Fin n} {a : α} {test : Option α → Bool}

lemma position_some (h : t.position test = some i) : test (t i) = true :=
  (Fin.find?_eq_some_iff.mp h).1

lemma position_none (h : t.position test = none) (i : Fin n) : test (t i) = false :=
  Fin.find?_eq_none_iff.mp h i

lemma mem_contents : a ∈ t.contents ↔ ∃ i, t i = some a := by
  simp [contents]

lemma contents_eq (t : Slots n α) (i : Fin n) :
  t.contents = (i ::ₘ (Finset.univ.erase i).val).filterMap t := by
  rw [contents, ← insert_erase (mem_univ i),
    insert_val_of_notMem (notMem_erase i _), erase_insert_eq_erase,
    erase_idem]

lemma filterMap_update (t : Slots n α) (i : Fin n) (x : Option α) :
  (Finset.univ.erase i).val.filterMap (update t i x) = (Finset.univ.erase i).val.filterMap t := by
  have hne : ∀ j ∈ (Finset.univ.erase i).val, j ≠ i := fun j hj =>
    ne_of_mem_erase (mem_val.mp hj)
  revert hne
  refine Quotient.inductionOn (Finset.univ.erase i).val fun l hne => ?_
  apply congrArg (fun l : List α => (l : Multiset α))
  apply List.filterMap_congr
  intro j hj
  exact Function.update_of_ne (hne j hj) x t

lemma contents_fill (hfree : t i = none) (a : α) :
  contents (update t i (some a)) = a ::ₘ t.contents := by
  rw [contents_eq _ i, Multiset.filterMap_cons_some _ _ _ (update_self i (some a) t),
    filterMap_update, contents_eq t i, Multiset.filterMap_cons_none i _ hfree]

lemma contents_clear (hused : t i = some a) : a ::ₘ contents (update t i none) = t.contents := by
  rw [contents_eq _ i, Multiset.filterMap_cons_none _ _ (update_self i none t),
    filterMap_update, contents_eq t i, Multiset.filterMap_cons_some t i _ hused]

lemma card_contents (t : Slots n α) : Multiset.card t.contents = t.occupied := by
  rw [contents, occupied, Finset.card, filter_val]
  induction (Finset.univ : Finset (Fin n)).val using Multiset.induction with
  | empty => rfl
  | cons i rest ih =>
    cases hi : t i with
    | none =>
      rw [Multiset.filterMap_cons_none i rest hi, ih, Multiset.filter_cons_of_neg]
      simp [hi]
    | some a =>
      rw [Multiset.filterMap_cons_some t i rest hi, Multiset.card_cons, ih,
        Multiset.filter_cons_of_pos, Multiset.card_cons]
      simp [hi]

lemma occupied_fill (hfree : t i = none) (a : α) :
  occupied (update t i (some a)) = t.occupied + 1 := by
  rw [← card_contents, contents_fill hfree, Multiset.card_cons, card_contents]

lemma occupied_clear (hused : t i = some a) : occupied (update t i none) + 1 = t.occupied := by
  rw [← card_contents, ← Multiset.card_cons a, contents_clear hused, card_contents]

lemma exists_free (h : t.occupied < n) : ∃ i, t i = none := by
  by_contra hfull
  have hall : Finset.univ.filter (fun i => (t i).isSome) = Finset.univ := by
    apply filter_true_of_mem
    intro i _
    exact Option.isSome_iff_ne_none.mpr fun hi => hfull ⟨i, hi⟩
  rw [occupied, hall, card_univ, Fintype.card_fin] at h
  exact Nat.lt_irrefl n h

lemma occupied_lt (hfree : t i = none) : t.occupied < n := by
  apply lt_of_le_of_ne ((card_filter_le _ _).trans_eq (card_fin n))
  intro hfull
  have hall := card_filter_eq_iff.mp (hfull.trans (card_fin n).symm) i
    (mem_univ i)
  rw [hfree] at hall
  cases hall

end Slots
end

/-! ## Counting the places that hold a value -/

variable {ι α : Type} [Fintype ι] [DecidableEq α]

/-- How many places hold `a`. -/
def tally (f : ι → α) (a : α) : Nat := (Finset.univ.filter fun i => f i = a).card

lemma tally_le_card (f : ι → α) (a : α) : tally f a ≤ Fintype.card ι :=
  card_le_univ _

variable {a : α}

lemma tally_eq_zero {f : ι → α} : tally f a = 0 ↔ ∀ i, f i ≠ a := by
  simp [tally, filter_eq_empty_iff]

lemma tally_congr {f g : ι → α} (h : ∀ i, g i = a ↔ f i = a) : tally g a = tally f a := by
  simp only [tally, h]

lemma tally_lt {f g : ι → α} (h : ∀ i, g i = a → f i = a) {i : ι} (hf : f i = a)
  (hg : g i ≠ a) : tally g a < tally f a := by
  refine card_lt_card ⟨fun j hj => ?_, fun hle => hg ?_⟩
  · rw [mem_filter] at hj ⊢
    exact ⟨hj.1, h j hj.2⟩
  have hi := hle (mem_filter.mpr ⟨mem_univ i, hf⟩)
  exact (mem_filter.mp hi).2

section
variable [DecidableEq ι] {f : ι → α} {i : ι} {a b : α}

lemma tally_update_self (h : f i ≠ a) : tally (Function.update f i a) a = tally f a + 1 := by
  have hset : (Finset.univ.filter fun j => Function.update f i a j = a) =
      insert i (Finset.univ.filter fun j => f j = a) := by
    ext j
    by_cases hj : j = i
    · subst hj
      simp
    · simp [hj]
  rw [tally, hset, card_insert_of_notMem (by simp [h]), tally]

lemma tally_update_of_ne (h : f i ≠ a) (hb : b ≠ a) :
  tally (Function.update f i b) a = tally f a := by
  refine tally_congr fun j => ?_
  by_cases hj : j = i
  · subst hj
    simp [h, hb]
  · rw [Function.update_of_ne hj]

end
end Aeos.Lib
