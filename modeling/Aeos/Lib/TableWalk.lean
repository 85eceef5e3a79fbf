/-
# AArch64 table walks

Stage-1 translation with 4 KB granules and 48-bit addresses: four levels of
512-entry tables, block descriptors at the two middle levels. Tables are arrays
of descriptors, found by their physical address. Level `0` is the last level
(4 KB pages) and level `3` the root.
-/

import Aeos.Lib.Bits

namespace Aeos.Lib

/-- Descriptors, by table address and index. -/
abbrev TableMem := Nat → Nat → Nat

/-- The bits of `va` that index a table of the given level. -/
def tableIndex (level va : Nat) : Nat := va >>> (12 + 9 * level) &&& 0x1FF

/-- Translation of `va` from a table of the given level downwards. -/
def walkFrom (mem : TableMem) : Nat → Nat → Nat → Option Nat
  | 0, table, va =>
    let entry := mem table (tableIndex 0 va)
    if entry &&& 3 = 3 then some ((entry &&& bitsFrom 12 48) ||| (va &&& 0xFFF)) else none
  | level + 1, table, va =>
    let entry := mem table (tableIndex (level + 1) va)
    if entry &&& 3 = 3 then walkFrom mem level (entry &&& bitsFrom 12 48) va
    else if entry &&& 3 = 1 ∧ level < 2 then
      -- A block descriptor ends the walk early; the root level has none.
      some ((entry &&& bitsFrom (21 + 9 * level) 48) |||
        (va &&& (2 ^ (21 + 9 * level) - 1)))
    else none

/-- Translation of `va` through the tables under `root`. -/
def walk (mem : TableMem) (root va : Nat) : Option Nat := walkFrom mem 3 root va

lemma tableIndex_eq (level va : Nat) : tableIndex level va = va / 2 ^ (12 + 9 * level) % 512 := by
  rw [tableIndex, Nat.shiftRight_eq_div_pow]
  exact Nat.and_two_pow_sub_one_eq_mod _ 9

lemma and_three (x : Nat) : x &&& 3 = x % 4 := Nat.and_two_pow_sub_one_eq_mod x 2

section
variable {mem : TableMem} {table va : Nat}

lemma walkFrom_of_empty {level : Nat} (hentry : mem table (tableIndex (level + 1) va) = 0) :
  walkFrom mem (level + 1) table va = none := by
  simp [walkFrom, hentry]

lemma walkFrom_of_table {level next : Nat} (haligned : next % 2 ^ 12 = 0)
  (hbound : next < 2 ^ 48) (hentry : mem table (tableIndex (level + 1) va) = next + 3) :
  walkFrom mem (level + 1) table va = walkFrom mem level next va := by
  have htype : (next + 3) &&& 3 = 3 := by
    rw [and_three]
    omega
  have haddr : (next + 3) &&& bitsFrom 12 48 = next :=
    aligned_add_and_bitsFrom (by decide) haligned (by decide) hbound
  simp only [walkFrom, hentry, htype, haddr, if_true]

lemma walkFrom_of_block {pa low : Nat} (haligned : pa % 2 ^ 21 = 0) (hbound : pa < 2 ^ 48)
  (hlow : low < 2 ^ 21) (htype : low % 4 = 1) (hentry : mem table (tableIndex 1 va) = pa + low) :
  walkFrom mem 1 table va = some (pa + va % 2 ^ 21) := by
  have hkind : (pa + low) &&& 3 = 1 := by
    rw [and_three]
    omega
  have haddr := aligned_add_and_bitsFrom (by decide) haligned hlow hbound
  have hoffset : pa ||| (va &&& (2 ^ 21 - 1)) = pa + va % 2 ^ 21 := by
    rw [Nat.and_two_pow_sub_one_eq_mod]
    exact or_of_aligned haligned (Nat.mod_lt _ (by decide))
  calc walkFrom mem 1 table va
      = some (((pa + low) &&& bitsFrom 21 48) ||| (va &&& (2 ^ 21 - 1))) := by
        simp [walkFrom, hentry, hkind]
    _ = some (pa + va % 2 ^ 21) := by rw [haddr, hoffset]

end

/-! ## Rows of a linked structure, each stored at its own address -/

open Function
universe u v w
variable {Row : Type u} {Index : Type v} {Value : Type w}

section
variable [DecidableEq Index]

def setEntry (mem : Nat → Index → Value) (addr : Nat) (i : Index) (value : Value) :
  Nat → Index → Value :=
  update mem addr (update (mem addr) i value)

lemma setEntry_of_ne (mem : Nat → Index → Value) {addr other : Nat} (i : Index) (value : Value)
  (hne : other ≠ addr) : setEntry mem addr i value other = mem other :=
  update_of_ne hne _ _

lemma setEntry_same (mem : Nat → Index → Value) (addr : Nat) (i : Index) (value : Value) :
  setEntry mem addr i value addr = update (mem addr) i value :=
  update_self _ _ _

end

/-- `place` gives the address of each row that is present; the rows present are
stored in `mem`, no two at the same address. -/
structure Placed (mem : Nat → Index → Value) (place : Row → Option Nat)
    (rows : Row → Index → Value) : Prop where
  stored : ∀ r a, place r = some a → mem a = rows r
  distinct : ∀ r r' a, place r = some a → place r' = some a → r = r'

namespace Placed

variable {mem mem' : Nat → Index → Value} {place : Row → Option Nat} {rows : Row → Index → Value}

lemma frame (h : Placed mem place rows)
  (hmem : ∀ r a, place r = some a → mem' a = mem a) : Placed mem' place rows where
  stored r a hr := (hmem r a hr).trans (h.stored r a hr)
  distinct := h.distinct

variable [DecidableEq Row] (h : Placed mem place rows)
include h

lemma store [DecidableEq Index] {r : Row} {a : Nat} (hr : place r = some a) (i : Index)
    (value : Value) : Placed (setEntry mem a i value) place
    (update rows r (update (rows r) i value)) where
  stored r' a' hr' := by
    by_cases hrow : r' = r
    · subst hrow
      obtain rfl : a = a' := Option.some.inj (hr.symm.trans hr')
      rw [setEntry_same, update_self, h.stored _ _ hr]
    have hne : a' ≠ a := fun heq => hrow (h.distinct _ _ a (heq ▸ hr') hr)
    rw [setEntry_of_ne _ _ _ hne, update_of_ne hrow, h.stored _ _ hr']
  distinct := h.distinct

lemma add (r : Row) {a : Nat} (hfresh : ∀ r', place r' ≠ some a) (row : Index → Value) :
  Placed (update mem a row) (update place r (some a)) (update rows r row) where
  stored r' a' hr' := by
    by_cases hrow : r' = r
    · subst hrow
      rw [update_self] at hr'
      obtain rfl : a = a' := Option.some.inj hr'
      rw [update_self, update_self]
    rw [update_of_ne hrow] at hr'
    have hne : a' ≠ a := fun heq => hfresh r' (heq ▸ hr')
    rw [update_of_ne hne, update_of_ne hrow, h.stored _ _ hr']
  distinct r₁ r₂ b h₁ h₂ := by
    by_cases hrow₁ : r₁ = r <;> by_cases hrow₂ : r₂ = r
    · rw [hrow₁, hrow₂]
    · rw [hrow₁, update_self] at h₁
      rw [update_of_ne hrow₂] at h₂
      exact absurd (h₂.trans h₁.symm) (hfresh r₂)
    · rw [hrow₂, update_self] at h₂
      rw [update_of_ne hrow₁] at h₁
      exact absurd (h₁.trans h₂.symm) (hfresh r₁)
    rw [update_of_ne hrow₁] at h₁
    rw [update_of_ne hrow₂] at h₂
    exact h.distinct _ _ _ h₁ h₂

end Placed
end Aeos.Lib
