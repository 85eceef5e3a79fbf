/-
# Queues by level

One first-in first-out queue per level. The front is the oldest entry of the
highest level that has one.
-/

import Mathlib.Algebra.GroupWithZero.Nat
import Mathlib.Data.List.Find
import Mathlib.Data.List.MinMax

namespace Aeos.Lib

open List Option Function
universe u

/-- One queue per level, oldest entry first. -/
abbrev Levels (α : Type u) := Nat → List α

namespace Levels

variable {α : Type u} {q : Levels α}

/-- The front of the highest non-empty level below `n`. -/
def front (q : Levels α) : Nat → Option α
  | 0 => none
  | n + 1 =>
    match q n with
    | x :: _ => some x
    | [] => front q n

/-- Take out the front: what it was and what is left. -/
def pop (q : Levels α) : Nat → Option (α × Levels α)
  | 0 => none
  | n + 1 =>
    match q n with
    | x :: rest => some (x, update q n rest)
    | [] => pop q n

def push (q : Levels α) (p : Nat) (x : α) : Levels α := update q p (q p ++ [x])

lemma push_same (q : Levels α) (p : Nat) (x : α) : push q p x p = q p ++ [x] :=
  update_self p _ q

variable {p r n : Nat} {x : α}

lemma push_of_ne (q : Levels α) (x : α) (hne : r ≠ p) : push q p x r = q r :=
  update_of_ne hne _ q

/-- Take the first occurrence out of a level. -/
def erase [BEq α] (q : Levels α) (p : Nat) (x : α) : Levels α :=
  update q p ((q p).erase x)

lemma mem_push {y : α} : y ∈ push q p x r ↔ y ∈ q r ∨ r = p ∧ y = x := by
  by_cases hr : r = p
  · subst hr
    simp [push_same]
  · simp [push_of_ne q x hr, hr]

lemma head_push {y : α} (h : (q r).head? = some y) : (push q p x r).head? = some y := by
  by_cases hr : r = p
  · subst hr
    simp [push_same, h]
  · rwa [push_of_ne q x hr]

section
variable [BEq α] [LawfulBEq α]

lemma count_push_same (p : Nat) (x : α) : (push q p x p).count x = (q p).count x + 1 := by
  simp [push_same]

variable {x y : α} {p r : Nat}

lemma count_push_of_ne (p r : Nat) (hne : y ≠ x) : (push q p x r).count y = (q r).count y := by
  by_cases hr : r = p
  · subst hr
    simp [push_same, count_append, hne.symm]
  · rw [push_of_ne q x hr]

omit [LawfulBEq α] in
lemma mem_of_mem_erase (h : y ∈ erase q p x r) : y ∈ q r := by
  by_cases hr : r = p
  · subst hr
    rw [erase, update_self] at h
    exact List.mem_of_mem_erase h
  · rwa [erase, update_of_ne hr] at h

lemma mem_erase_of_ne (hne : y ≠ x) : y ∈ erase q p x r ↔ y ∈ q r := by
  by_cases hr : r = p
  · subst hr
    rw [erase, update_self, List.mem_erase_of_ne hne]
  · rw [erase, update_of_ne hr]

lemma count_erase_of_ne (p r : Nat) (hne : y ≠ x) : (erase q p x r).count y = (q r).count y := by
  by_cases hr : r = p
  · subst hr
    rw [erase, update_self, List.count_erase_of_ne hne]
  · rw [erase, update_of_ne hr]

lemma count_erase_same (p : Nat) (x : α) : (erase q p x p).count x = (q p).count x - 1 := by
  rw [erase, update_self, count_erase_self]

lemma head_erase_of_ne (hne : y ≠ x) (h : (q r).head? = some y) :
  (erase q p x r).head? = some y := by
  by_cases hr : r = p
  · subst hr
    rw [erase, update_self]
    cases hq : q r with
    | nil =>
      rw [hq] at h
      cases h
    | cons z zs =>
      rw [hq] at h
      obtain rfl := some.inj h
      rw [erase_cons_tail (by simpa using hne)]
      rfl
  · rwa [erase, update_of_ne hr]

end

lemma front_eq_none_iff : front q n = none ↔ ∀ p < n, q p = [] := by
  induction n with
  | zero => simp [front]
  | succ n ih =>
    rw [front]
    cases hn : q n with
    | cons x xs =>
      refine iff_of_false (by simp) fun h => ?_
      rw [h n (Nat.lt_succ_self n)] at hn
      cases hn
    | nil =>
      rw [ih]
      refine ⟨fun h p hp => ?_, fun h p hp => h p (Nat.lt_succ_of_lt hp)⟩
      rcases Nat.lt_succ_iff_lt_or_eq.mp hp with hlt | rfl
      · exact h p hlt
      · exact hn

lemma front_eq_some_iff :
  front q n = some x ↔ ∃ p < n, (q p).head? = some x ∧ ∀ r, p < r → r < n → q r = [] := by
  induction n with
  | zero => simp [front]
  | succ n ih =>
    rw [front]
    cases hn : q n with
    | cons y ys =>
      constructor
      · intro hx
        obtain rfl := some.inj hx
        exact ⟨n, Nat.lt_succ_self n, by rw [hn]; rfl, fun r hlo hhi => by omega⟩
      rintro ⟨p, hp, hhead, habove⟩
      rcases Nat.lt_succ_iff_lt_or_eq.mp hp with hlt | rfl
      · rw [habove n hlt (Nat.lt_succ_self n)] at hn
        cases hn
      · rwa [hn] at hhead
    | nil =>
      rw [ih]
      constructor
      · rintro ⟨p, hp, hhead, habove⟩
        refine ⟨p, Nat.lt_succ_of_lt hp, hhead, fun r hlo hhi => ?_⟩
        rcases Nat.lt_succ_iff_lt_or_eq.mp hhi with hlt | rfl
        · exact habove r hlo hlt
        · exact hn
      rintro ⟨p, hp, hhead, habove⟩
      rcases Nat.lt_succ_iff_lt_or_eq.mp hp with hlt | rfl
      · exact ⟨p, hlt, hhead, fun r hlo hhi => habove r hlo (Nat.lt_succ_of_lt hhi)⟩
      rw [hn] at hhead
      cases hhead

lemma front_spec (hfront : front q n = some x) : ∃ p < n, x ∈ q p ∧ ∀ r < n, ∀ y ∈ q r, r ≤ p := by
  obtain ⟨p, hp, hhead, habove⟩ := front_eq_some_iff.mp hfront
  refine ⟨p, hp, List.mem_of_head? hhead, fun r hr y hy => ?_⟩
  by_contra hlt
  rw [habove r (Nat.not_le.mp hlt) hr] at hy
  cases hy

/-- The front does not change when a level that has entries gets one more. -/
lemma front_push (hne : q p ≠ []) (x : α) : front (push q p x) n = front q n := by
  induction n with
  | zero => rfl
  | succ n ih =>
    rw [front, front, ih]
    by_cases hn : n = p
    · rw [hn, push_same]
      cases hq : q p with
      | nil => exact absurd hq hne
      | cons y ys => rfl
    · rw [push_of_ne q x hn]

lemma pop_eq_none (h : ∀ p < n, q p = []) : pop q n = none := by
  induction n with
  | zero => rfl
  | succ n ih =>
    rw [pop, h n (Nat.lt_succ_self n)]
    exact ih fun p hp => h p (Nat.lt_succ_of_lt hp)

lemma pop_eq_some {rest : List α} (hp : p < n) (hlevel : q p = x :: rest)
  (habove : ∀ r, p < r → r < n → q r = []) : pop q n = some (x, update q p rest) := by
  induction n with
  | zero => exact absurd hp (Nat.not_lt_zero p)
  | succ n ih =>
    rw [pop]
    rcases Nat.lt_succ_iff_lt_or_eq.mp hp with hlt | rfl
    · rw [habove n hlt (Nat.lt_succ_self n)]
      exact ih hlt fun r hlo hhi => habove r hlo (Nat.lt_succ_of_lt hhi)
    · rw [hlevel]

/-! ## One line for all levels

A line holds the entries with their levels, in the order in which they came. -/

/-- The queues that a line stands for. -/
def ofLine (l : List (α × Nat)) : Levels α := fun p => (l.filter fun x => x.2 = p).map Prod.fst

/-- The earliest entry that none outranks. -/
def first (l : List (α × Nat)) : Option (α × Nat) := l.find? fun x => l.all fun y => y.2 ≤ x.2

variable {l : List (α × Nat)}

lemma push_ofLine (l : List (α × Nat)) (p : Nat) (x : α) :
  push (ofLine l) p x = ofLine (l ++ [(x, p)]) := by
  funext r
  by_cases hr : r = p
  · subst hr
    simp [push_same, ofLine]
  · simp [push_of_ne _ x hr, ofLine, Ne.symm hr]

lemma erase_ofLine [BEq α] [LawfulBEq α] (l : List (α × Nat)) (p : Nat) (x : α) :
  erase (ofLine l) p x = ofLine (l.erase (x, p)) := by
  funext r
  rw [ofLine, ← erase_filter]
  by_cases hr : r = p
  · subst hr
    -- On one level an entry is its value.
    have hlevel : l.filter (fun y => y.2 = r) = (ofLine l r).map fun y => (y, r) := by
      rw [ofLine, List.map_map]
      conv_lhs => rw [← List.map_id (l.filter _)]
      refine map_congr_left fun y hy => ?_
      exact Prod.ext rfl (of_decide_eq_true (mem_filter.mp hy).2)
    rw [erase, update_self, hlevel, ← map_erase (Prod.mk_left_injective r), List.map_map]
    exact (List.map_id _).symm
  have hother : (x, p) ∉ l.filter fun y => y.2 = r := by
    intro hmem
    exact hr (of_decide_eq_true (mem_filter.mp hmem).2).symm
  rw [erase, update_of_ne hr, erase_of_not_mem hother]
  rfl

lemma exists_first (hne : l ≠ []) : ∃ x, first l = some x := by
  have htop : ∃ x ∈ l, ∀ y ∈ l, y.2 ≤ x.2 := by
    have hsome : l.argmax Prod.snd ≠ none := mt argmax_eq_none.mp hne
    obtain ⟨m, hm⟩ := ne_none_iff_exists'.mp hsome
    exact ⟨m, argmax_mem hm, fun y hy => le_of_mem_argmax hy hm⟩
  obtain ⟨x, hx, hle⟩ := htop
  refine isSome_iff_exists.mp (List.find?_isSome.mpr ⟨x, hx, ?_⟩)
  simpa using hle

/-- The first of a line is at the head of its level, and the levels above are empty. -/
lemma first_eq_some {x : α × Nat} (hfirst : first l = some x) :
  (ofLine l x.2).head? = some x.1 ∧ ∀ r, x.2 < r → ofLine l r = [] := by
  have hx : x ∈ l := List.mem_of_find?_eq_some hfirst
  have hle : ∀ y ∈ l, y.2 ≤ x.2 := by simpa using List.find?_some hfirst
  constructor
  · rw [ofLine, List.head?_map, List.head?_filter]
    have hsame : l.find? (fun y => y.2 = x.2) = first l := by
      apply List.find?_congr
      intro y hy
      rw [Bool.eq_iff_iff, decide_eq_true_eq, List.all_eq_true]
      simp only [decide_eq_true_eq]
      exact ⟨fun heq z hz => heq ▸ hle z hz, fun htop => (hle y hy).antisymm (htop x hx)⟩
    rw [hsame, hfirst]
    rfl
  intro r hr
  rw [ofLine, filter_eq_nil_iff.mpr, map_nil]
  intro y hy
  have := hle y hy
  simp
  omega

lemma front_ofLine {x : α × Nat} (hfirst : first l = some x) (hx : x.2 < n) :
  front (ofLine l) n = some x.1 := by
  obtain ⟨hhead, habove⟩ := first_eq_some hfirst
  exact front_eq_some_iff.mpr ⟨x.2, hx, hhead, fun r hlo _ => habove r hlo⟩

lemma pop_ofLine [BEq α] [LawfulBEq α] {x : α × Nat} (hfirst : first l = some x)
  (hx : x.2 < n) : pop (ofLine l) n = some (x.1, ofLine (l.erase x)) := by
  obtain ⟨hhead, habove⟩ := first_eq_some hfirst
  obtain ⟨rest, hrest⟩ := List.head?_eq_some_iff.mp hhead
  rw [pop_eq_some hx hrest fun r hlo _ => habove r hlo, ← erase_ofLine, erase, hrest,
    erase_cons_head]

lemma countP_lt_succ (l : List (α × Nat)) (n : Nat) : l.countP (fun x => x.2 < n + 1) =
    l.countP (fun x => x.2 < n) + l.countP (fun x => x.2 = n) := by
  induction l with
  | nil => rfl
  | cons x l ih =>
    simp only [countP_cons, ih, decide_eq_true_eq]
    split_ifs <;> omega

lemma sum_length_ofLine (hlevels : ∀ x ∈ l, x.2 < n) :
  ((List.range n).map fun p => (ofLine l p).length).sum = l.length := by
  have hsum : ∀ n, ((List.range n).map fun p => (ofLine l p).length).sum =
      l.countP (fun x => x.2 < n) := by
    intro n
    induction n with
    | zero => simp
    | succ n ih =>
      rw [range_succ, map_append, sum_append, ih, countP_lt_succ]
      simp [ofLine, countP_eq_length_filter]
  rw [hsum, countP_eq_length]
  simpa using hlevels

end Levels
end Aeos.Lib
