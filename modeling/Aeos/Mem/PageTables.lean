/-
# What the page tables of an address space mean

A `Tree` names the contents of an address space by path, innermost index first: `[]` is the PGD,
`[i]` and `[j, i]` are the tables below it, `[k, j, i]` is a block. The tables under top-level
slot `0` are the kernel's.

`Represents` ties a tree to memory. Each store that `as_map_block` makes is replayed on the
tree, and a walk reads the tree back.
-/

import Aeos.Mem.Vmm

namespace Aeos.Mem

open Lib List Option Function
universe u

abbrev Tree := List Nat → Option Nat

def IsTable (p : List Nat) : Prop := p.length ≤ 2 ∧ p.getLast? ≠ some 0

instance : DecidablePred IsTable := fun p =>
  inferInstanceAs (Decidable (p.length ≤ 2 ∧ p.getLast? ≠ some 0))

def blockPath (va : Nat) : List Nat := [tableIndex 1 va, tableIndex 2 va, tableIndex 3 va]

def descriptor (p : List Nat) : Option Nat → Nat
  | none => 0
  | some a => if p.length ≤ 2 then a ||| pteTable else a ||| userBlockRwx ||| pteValid

def Tree.place (t : Tree) (p : List Nat) : Option Nat := if IsTable p then t p else none

def Tree.rows (t : Tree) (p : List Nat) (i : Nat) : Nat := descriptor (i :: p) (t (i :: p))

structure Represents (k : KernelTables) (mem : TableMem) (sp : AddrSpace) (t : Tree) : Prop where
  root : t [] = some sp.pgd
  shared : t [0] = some k.pud
  closed : ∀ i p, t p = none → t (i :: p) = none
  placed : Placed mem t.place t.rows
  owned : ∀ p a, t.place p = some a → a ∈ sp.tables
  table_ok : ∀ p a, p.length ≤ 2 → t p = some a → a % 2 ^ 12 = 0 ∧ a < 2 ^ 48
  block_ok : ∀ p a, p.length = 3 → t p = some a → a % 2 ^ 21 = 0 ∧ a < 2 ^ 48

variable {p : List Nat}

lemma Tree.place_of_isTable (t : Tree) (hp : IsTable p) : t.place p = t p :=
  if_pos hp

lemma Tree.rows_update (t : Tree) (i : Nat) (p : List Nat) (target : Option Nat) :
  Tree.rows (update t (i :: p) target) = update t.rows p
      (update (t.rows p) i (descriptor (i :: p) target)) := by
  funext q j
  by_cases hq : q = p
  · subst hq
    by_cases hj : j = i
    · subst hj
      simp only [Tree.rows, update_self]
    · simp [Tree.rows, hj]
  have hne : j :: q ≠ i :: p := fun heq => hq (List.cons.inj heq).2
  rw [update_of_ne hq]
  simp only [Tree.rows, update_of_ne hne]

lemma isTable_of_cons {i : Nat} (h : IsTable (i :: p)) : IsTable p := by
  obtain ⟨hlen, hlast⟩ := h
  refine ⟨by simp only [length_cons] at hlen; omega, ?_⟩
  cases p with
  | nil => simp
  | cons j p => simpa using hlast

lemma descriptor_table {a : Nat} (hp : p.length ≤ 2) (ha : a % 2 ^ 12 = 0) :
  descriptor p (some a) = a + 3 := by
  simp only [descriptor, hp, if_true, pteTable]
  exact or_of_aligned ha (by decide)

lemma descriptor_block {pa : Nat} (hp : p.length = 3) (hpa : pa % 2 ^ 21 = 0) :
  descriptor p (some pa) = pa + (userBlockRwx ||| pteValid) := by
  have hlen : ¬ p.length ≤ 2 := by omega
  simp only [descriptor, hlen, if_false]
  rw [Nat.or_assoc]
  exact or_of_aligned hpa (by decide)

namespace Represents

variable {k : KernelTables} {mem mem' : TableMem} {sp : AddrSpace} {t : Tree}
  {p : List Nat} {a va : Nat}

variable (h : Represents k mem sp t)
include h

lemma entry (hp : IsTable p) (ha : t p = some a) (i : Nat) :
  mem a i = descriptor (i :: p) (t (i :: p)) := by
  have hrow := h.placed.stored p a (by rw [t.place_of_isTable hp, ha])
  rw [hrow]
  rfl

lemma walkFrom_child (hp : IsTable p) (hlen : p.length ≤ 1) (ha : t p = some a) (level : Nat) :
  walkFrom mem (level + 1) a va =
    (t (tableIndex (level + 1) va :: p)).bind fun b => walkFrom mem level b va := by
  have hentry := h.entry hp ha (tableIndex (level + 1) va)
  have hchild : (tableIndex (level + 1) va :: p).length ≤ 2 := by
    simp only [length_cons]
    omega
  cases hb : t (tableIndex (level + 1) va :: p) with
  | none =>
    rw [hb] at hentry
    exact walkFrom_of_empty hentry
  | some b =>
    obtain ⟨haligned, hbound⟩ := h.table_ok _ _ hchild hb
    rw [hb, descriptor_table hchild haligned] at hentry
    exact walkFrom_of_table haligned hbound hentry

lemma walkFrom_block (hp : IsTable p) (hlen : p.length = 2) (ha : t p = some a) :
  walkFrom mem 1 a va = (t (tableIndex 1 va :: p)).map (· + va % 2 ^ 21) := by
  have hentry := h.entry hp ha (tableIndex 1 va)
  have hblock : (tableIndex 1 va :: p).length = 3 := by
    rw [length_cons, hlen]
  cases hb : t (tableIndex 1 va :: p) with
  | none =>
    rw [hb] at hentry
    exact walkFrom_of_empty hentry
  | some pa =>
    obtain ⟨haligned, hbound⟩ := h.block_ok _ _ hblock hb
    rw [hb, descriptor_block hblock haligned] at hentry
    exact walkFrom_of_block haligned hbound (by decide) (by decide) hentry

lemma walk_eq (hslot : tableIndex 3 va ≠ 0) :
  walk mem sp.pgd va = (t (blockPath va)).map (· + va % 2 ^ 21) := by
  have hroot : IsTable [] := by decide
  have hpud : IsTable [tableIndex 3 va] := by
    refine ⟨by simp, ?_⟩
    simpa using hslot
  have hpmd : IsTable [tableIndex 2 va, tableIndex 3 va] := by
    refine ⟨by simp, ?_⟩
    simpa using hslot
  unfold walk blockPath
  rw [h.walkFrom_child hroot (by simp) h.root]
  cases hb : t [tableIndex 3 va] with
  | none => simp [h.closed _ _ (h.closed _ _ hb)]
  | some pud =>
    rw [bind_some, h.walkFrom_child hpud (by simp) hb]
    cases hc : t [tableIndex 2 va, tableIndex 3 va] with
    | none => simp [h.closed _ _ hc]
    | some pmd =>
      exact h.walkFrom_block hpmd rfl hc

lemma walk_shared (hkernel : mem k.pgd 0 = k.pud ||| pteTable) (hslot : tableIndex 3 va = 0) :
  walk mem sp.pgd va = walk mem k.pgd va := by
  have hentry : mem sp.pgd 0 = mem k.pgd 0 := by
    rw [h.entry (by decide) h.root, h.shared, hkernel]
    rfl
  simp only [walk, walkFrom, hslot, hentry]

lemma frame (hmem : ∀ a ∈ sp.tables, mem' a = mem a) : Represents k mem' sp t :=
  { h with placed := h.placed.frame fun p a hp => hmem a (h.owned p a hp) }

lemma place_ne (hfresh : a ∉ sp.tables) (p : List Nat) :
  t.place p ≠ some a := fun hp => hfresh (h.owned p a hp)

lemma closed_update {i : Nat} (ha : t p = some a) (b : Nat) :
  ∀ j q, update t (i :: p) (some b) q = none → update t (i :: p) (some b) (j :: q) = none := by
  intro j q hnone
  have hq : q ≠ i :: p := by
    rintro rfl
    simp at hnone
  rw [update_of_ne hq] at hnone
  have hne : j :: q ≠ i :: p := by
    rintro heq
    obtain ⟨_, rfl⟩ := List.cons.inj heq
    rw [ha] at hnone
    cases hnone
  rw [update_of_ne hne]
  exact h.closed j q hnone

lemma rows_of_none (hp : t p = none) : t.rows p = fun _ => 0 := by
  funext i
  rw [Tree.rows, h.closed i p hp]
  rfl

lemma addTable {i table : Nat} (hp : IsTable (i :: p)) (htable : t p = some table)
  (hmissing : t (i :: p) = none) (hfresh : a ∉ sp.tables) (haligned : a % 2 ^ 12 = 0)
  (hbound : a < 2 ^ 48) : Represents k (setEntry (update mem a fun _ => 0) table i (a ||| pteTable))
    { sp with tables := sp.tables ++ [a] } (update t (i :: p) (some a)) := by
  have hparent : IsTable p := isTable_of_cons hp
  have hself : p ≠ i :: p := fun heq => by
    have := congrArg List.length heq
    simp at this
  have hplace : Tree.place (update t (i :: p) (some a)) =
      update t.place (i :: p) (some a) := by
    funext q
    by_cases hq : q = i :: p
    · subst hq
      simp [Tree.place, hp]
    · simp [Tree.place, update_of_ne hq]
  have hrow : descriptor (i :: p) (some a) = a ||| pteTable := if_pos hp.1
  refine ⟨?_, ?_, h.closed_update htable a, ?_, ?_, ?_, ?_⟩
  · exact h.root
  · have hne : [0] ≠ i :: p := fun heq => hp.2 (by simp [← heq])
    rw [update_of_ne hne]
    exact h.shared
  · rw [hplace, t.rows_update, hrow]
    have hadded := h.placed.add (i :: p) (h.place_ne hfresh) (t.rows (i :: p))
    rw [Function.update_eq_self, h.rows_of_none hmissing] at hadded
    refine hadded.store ?_ i (a ||| pteTable)
    rw [update_of_ne hself, t.place_of_isTable hparent, htable]
  · intro q b hq
    rw [hplace] at hq
    by_cases hqi : q = i :: p
    · rw [hqi, update_self] at hq
      obtain rfl := some.inj hq
      simp
    rw [update_of_ne hqi] at hq
    exact mem_append_left _ (h.owned q b hq)
  · intro q b hlen hq
    by_cases hqi : q = i :: p
    · rw [hqi, update_self] at hq
      obtain rfl := some.inj hq
      exact ⟨haligned, hbound⟩
    rw [update_of_ne hqi] at hq
    exact h.table_ok q b hlen hq
  intro q b hlen hq
  have hqi : q ≠ i :: p := by
    rintro rfl
    have := hp.1
    omega
  rw [update_of_ne hqi] at hq
  exact h.block_ok q b hlen hq

lemma setBlock {i pmd pa : Nat} (hp : IsTable p) (hlen : p.length = 2) (hpmd : t p = some pmd)
  (haligned : pa % 2 ^ 21 = 0) (hbound : pa < 2 ^ 48) :
  Represents k (setEntry mem pmd i (pa ||| userBlockRwx ||| pteValid)) sp
    (update t (i :: p) (some pa)) := by
  have hblock : (i :: p).length = 3 := by rw [length_cons, hlen]
  have hkeep : ∀ q, q.length ≤ 2 → update t (i :: p) (some pa) q = t q := by
    intro q hq
    refine update_of_ne ?_ _ _
    rintro rfl
    omega
  have hplace : Tree.place (update t (i :: p) (some pa)) = t.place := by
    funext q
    by_cases hq : IsTable q
    · rw [Tree.place_of_isTable _ hq, Tree.place_of_isTable _ hq, hkeep q hq.1]
    · simp [Tree.place, hq]
  have hrow : descriptor (i :: p) (some pa) = pa ||| userBlockRwx ||| pteValid :=
    if_neg (by omega)
  refine ⟨?_, ?_, h.closed_update hpmd pa, ?_, ?_, ?_, ?_⟩
  · exact h.root
  · rw [hkeep [0] (by simp)]
    exact h.shared
  · rw [hplace, t.rows_update, hrow]
    exact h.placed.store (by rw [t.place_of_isTable hp, hpmd]) i _
  · rw [hplace]
    exact h.owned
  · intro q b hq hb
    rw [hkeep q hq] at hb
    exact h.table_ok q b hq hb
  intro q b hq hb
  by_cases hqi : q = i :: p
  · rw [hqi, update_self] at hb
    obtain rfl := some.inj hb
    exact ⟨haligned, hbound⟩
  rw [update_of_ne hqi] at hb
  exact h.block_ok q b hq hb

end Represents

def freshTree (k : KernelTables) (pgd : Nat) : Tree
  | [] => some pgd
  | [0] => some k.pud
  | _ => none

lemma represents_freshTree {k : KernelTables} {mem : TableMem} {pgd : Nat} {sp : AddrSpace}
  (hkernel : ∀ i, mem pgd i = if i = 0 then k.pud ||| pteTable else 0)
  (hpgd : sp.pgd = pgd) (hown : pgd ∈ sp.tables) (haligned : pgd % 2 ^ 12 = 0)
  (hbound : pgd < 2 ^ 48) : Represents k mem sp (freshTree k pgd) := by
  have hplace : ∀ p a, (freshTree k pgd).place p = some a → p = [] ∧ a = pgd := by
    intro p a hp
    unfold Tree.place at hp
    split at hp
    · next htable =>
        unfold freshTree at hp
        split at hp
        · exact ⟨rfl, (some.inj hp).symm⟩
        · exact absurd rfl htable.2
        · cases hp
    · cases hp
  refine ⟨by rw [hpgd]; rfl, rfl, ?_, ⟨?_, ?_⟩, ?_, ?_, ?_⟩
  · intro i p hp
    unfold freshTree at hp
    split at hp
    · cases hp
    · cases hp
    next hnil _ =>
      cases p with
      | nil => exact absurd rfl hnil
      | cons j p => simp [freshTree]
  · intro p a hp
    obtain ⟨rfl, rfl⟩ := hplace p a hp
    funext i
    rw [hkernel i]
    by_cases hi : i = 0
    · subst hi
      rfl
    · simp [hi, Tree.rows, freshTree, descriptor]
  · intro p q a hp hq
    rw [(hplace p a hp).1, (hplace q a hq).1]
  · intro p a hp
    rw [(hplace p a hp).2]
    exact hown
  · intro p a _ hp
    unfold freshTree at hp
    split at hp
    · obtain rfl := some.inj hp
      exact ⟨haligned, hbound⟩
    · obtain rfl := some.inj hp
      exact ⟨k.pud_aligned, k.pud_bounded⟩
    · cases hp
  intro p a hlen hp
  unfold freshTree at hp
  split at hp
  · simp at hlen
  · simp at hlen
  · cases hp

end Aeos.Mem
