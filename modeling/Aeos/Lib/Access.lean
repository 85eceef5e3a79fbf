/-
# Programs that touch memory

A program over a byte-addressed memory, run together with the list of addresses it reads or
writes. `Stays P` says that a run touches only addresses in `P`. Addresses are `w`-bit words,
and pointer arithmetic wraps.
-/

import Aeos.Lib.Bytes

namespace Aeos.Lib

open List BitVec

/-- What a run comes to: its result, the memory it leaves, and the addresses it
touched on the way, in order. -/
structure Outcome (w : Nat) (B α : Type) where
  value : α
  mem : BitVec w → B
  touched : List (BitVec w)

/-- A program over a memory of `B`s. -/
def Access (w : Nat) (B α : Type) : Type := (BitVec w → B) → Outcome w B α

/-- The address `i` places after `base`. -/
def place {w : Nat} (base : BitVec w) (i : Nat) : BitVec w := base + BitVec.ofNat w i

namespace Access

variable {w : Nat} {B α β : Type}

instance : Monad (Access w B) where
  pure a := fun m => ⟨a, m, []⟩
  bind x f := fun m =>
    let first := x m
    let second := f first.value first.mem
    ⟨second.value, second.mem, first.touched ++ second.touched⟩

def load (a : BitVec w) : Access w B B := fun m => ⟨m a, m, [a]⟩

def store (a : BitVec w) (b : B) : Access w B Unit := fun m => ⟨(), Function.update m a b, [a]⟩

/-- A change of memory that the program itself does not make. -/
def meanwhile (f : (BitVec w → B) → BitVec w → B) : Access w B Unit := fun m => ⟨(), f m, []⟩

section
variable (m : BitVec w → B)

@[simp]
lemma run_pure (a : α) : (pure a : Access w B α) m = ⟨a, m, []⟩ := rfl

@[simp]
lemma value_bind (x : Access w B α) (f : α → Access w B β) :
  ((x >>= f) m).value = (f (x m).value (x m).mem).value := rfl

@[simp]
lemma mem_bind (x : Access w B α) (f : α → Access w B β) :
  ((x >>= f) m).mem = (f (x m).value (x m).mem).mem := rfl

@[simp]
lemma value_load (a : BitVec w) : (load a m : Outcome w B B).value = m a := rfl

@[simp]
lemma mem_load (a : BitVec w) : (load a m : Outcome w B B).mem = m := rfl

end

/-- Every address the run touches is in `P`. -/
def Stays (P : BitVec w → Prop) (x : Access w B α) (m : BitVec w → B) : Prop :=
  ∀ a ∈ (x m).touched, P a

section
variable {P : BitVec w → Prop} {m : BitVec w → B}

@[simp]
lemma stays_pure (a : α) : Stays P (pure a : Access w B α) m := by
  intro b hb
  cases hb

@[simp]
lemma stays_bind (x : Access w B α) (f : α → Access w B β) :
  Stays P (x >>= f) m ↔ Stays P x m ∧ Stays P (f (x m).value) (x m).mem := by
  show (∀ a ∈ (x m).touched ++ (f (x m).value (x m).mem).touched, P a) ↔ _
  simp only [mem_append, or_imp, forall_and]
  rfl

@[simp]
lemma stays_load (a : BitVec w) : Stays P (load a : Access w B B) m ↔ P a := by
  show (∀ b ∈ [a], P b) ↔ _
  simp

@[simp]
lemma stays_store (a : BitVec w) (b : B) : Stays P (store a b) m ↔ P a := by
  show (∀ c ∈ [a], P c) ↔ _
  simp

@[simp]
lemma stays_meanwhile (f : (BitVec w → B) → BitVec w → B) : Stays P (meanwhile f) m := by
  intro b hb
  cases hb

lemma Stays.mono {Q : BitVec w → Prop} {x : Access w B α} (h : Stays P x m)
  (himp : ∀ a, P a → Q a) : Stays Q x m :=
  fun a ha => himp a (h a ha)

end

/-! ## Copying -/

def loadFrom (base : BitVec w) : Nat → Nat → Access w B (List B)
  | _, 0 => pure []
  | i, n + 1 => do
      let b ← load (place base i)
      let rest ← loadFrom base (i + 1) n
      pure (b :: rest)

def loadBytes (base : BitVec w) (n : Nat) : Access w B (List B) := loadFrom base 0 n

def storeFrom (base : BitVec w) : Nat → List B → Access w B Unit
  | _, [] => pure ()
  | i, b :: rest => do
      store (place base i) b
      storeFrom base (i + 1) rest

def storeBytes (base : BitVec w) (bytes : List B) : Access w B Unit := storeFrom base 0 bytes

/-- Write a 32-bit word, least significant byte first. -/
def storeWord (base : BitVec w) (x : Nat) : Access w UInt8 Unit :=
  storeBytes base ((List.range 4).map (leByte x))

section
variable {P : BitVec w → Prop} {base : BitVec w} {m : BitVec w → B} {bytes : List B}

lemma stays_loadFrom {n : Nat} {i : Nat} (h : ∀ j, i ≤ j → j < i + n → P (place base j)) :
  Stays P (loadFrom base i n) m := by
  induction n generalizing i with
  | zero => exact stays_pure _
  | succ n ih =>
    rw [loadFrom, stays_bind, stays_bind, stays_load]
    refine ⟨h i (Nat.le_refl i) (by omega), ?_, stays_pure _⟩
    apply ih
    intro j hij hj
    apply h j <;> omega

lemma stays_loadBytes {n : Nat} (h : ∀ j < n, P (place base j)) : Stays P (loadBytes base n) m := by
  apply stays_loadFrom
  intro j _ hj
  exact h j (by omega)

lemma stays_storeFrom {i : Nat} (h : ∀ j, i ≤ j → j < i + bytes.length → P (place base j)) :
  Stays P (storeFrom base i bytes) m := by
  induction bytes generalizing i m with
  | nil => exact stays_pure _
  | cons b rest ih =>
    rw [length_cons] at h
    rw [storeFrom, stays_bind, stays_store]
    refine ⟨h i (Nat.le_refl i) (by omega), ?_⟩
    apply ih
    intro j hij hj
    apply h j <;> omega

lemma stays_storeBytes (h : ∀ j < bytes.length, P (place base j)) :
  Stays P (storeBytes base bytes) m := by
  apply stays_storeFrom
  intro j _ hj
  exact h j (by omega)

lemma stays_storeWord {x : Nat} {m : BitVec w → UInt8} (h : ∀ j < 4, P (place base j)) :
  Stays P (storeWord base x) m :=
  stays_storeBytes h

lemma run_loadFrom (i n : Nat) (m : BitVec w → B) :
  (loadFrom base i n m).value = (List.range n).map (fun j => m (place base (i + j))) ∧
    (loadFrom base i n m).mem = m := by
  induction n generalizing i with
  | zero => exact ⟨rfl, rfl⟩
  | succ n ih =>
    obtain ⟨hvalue, hmem⟩ := ih (i + 1)
    constructor
    · rw [loadFrom, value_bind, value_bind, value_load, mem_load, hvalue, run_pure,
        range_succ_eq_map, map_cons, map_map]
      show m (place base i) :: _ = m (place base i) :: _
      congr 1
      apply map_congr_left
      intro j _
      show m (place base (i + 1 + j)) = m (place base (i + (j + 1)))
      rw [Nat.add_assoc, Nat.add_comm 1 j]
    · rw [loadFrom, mem_bind, mem_bind, run_pure, value_load, mem_load, hmem]

lemma value_loadBytes (n : Nat) (m : BitVec w → B) :
  (loadBytes base n m).value = (List.range n).map fun j => m (place base j) := by
  rw [loadBytes, (run_loadFrom 0 n m).1]
  simp only [Nat.zero_add]

lemma mem_loadBytes (n : Nat) (m : BitVec w → B) : (loadBytes base n m).mem = m :=
  (run_loadFrom 0 n m).2

lemma toNat_sub_one {x : BitVec w} (hx : x ≠ 0) : (x - 1).toNat = x.toNat - 1 := by
  have hpos : x.toNat ≠ 0 := fun h => hx (eq_of_toNat_eq h)
  have hone : (1 : BitVec w).toNat = 1 := by
    have hw : 1 < 2 ^ w := by omega
    simp [Nat.mod_eq_of_lt hw]
  rw [toNat_sub_of_le, hone]
  rw [le_def, hone]
  omega

def writeAt (m : BitVec w → B) (base : BitVec w) (bytes : List B) : BitVec w → B :=
  fun a => bytes.getD (a - base).toNat (m a)

lemma writeAt_place {k : Nat} (hk : k < bytes.length) (hlen : bytes.length ≤ 2 ^ w)
  (m : BitVec w → B) (base : BitVec w) :
  writeAt m base bytes (place base k) = bytes.getD k (m (place base k)) := by
  have hoff : (place base k - base).toNat = k := by
    rw [place, BitVec.add_comm, BitVec.add_sub_cancel, toNat_ofNat]
    exact Nat.mod_eq_of_lt (lt_of_lt_of_le hk hlen)
  rw [writeAt, hoff]

lemma writeAt_cons {b : B} {rest : List B} (hlen : rest.length < 2 ^ w) (m : BitVec w → B)
  (base : BitVec w) :
  writeAt m base (b :: rest) = writeAt (Function.update m base b) (base + 1) rest := by
  funext a
  have hstep : a - (base + 1) = a - base - 1 := by rw [BitVec.sub_sub]
  by_cases ha : a = base
  · subst ha
    -- One place back is the last place of all, past the end of the bytes.
    have hlast : rest.length ≤ (a - (a + 1)).toNat := by
      have hall : 0#w - 1 = BitVec.allOnes w := by
        exact neg_one_eq_allOnes
      rw [hstep, BitVec.sub_self, hall, toNat_allOnes]
      omega
    rw [writeAt, writeAt, BitVec.sub_self, getD_eq_default _ _ hlast, Function.update_self]
    rfl
  have hne : a - base ≠ 0 := by
    intro hzero
    rw [BitVec.sub_eq_iff_eq_add] at hzero
    exact ha (by simpa using hzero)
  obtain ⟨k, hk⟩ : ∃ k, (a - base).toNat = k + 1 :=
    Nat.exists_eq_succ_of_ne_zero fun hzero => hne (eq_of_toNat_eq hzero)
  rw [writeAt, writeAt, Function.update_of_ne ha, hstep, toNat_sub_one hne, hk]
  rfl

variable (hlen : bytes.length ≤ 2 ^ w)
include hlen

lemma mem_storeFrom (i : Nat) (m : BitVec w → B) :
  (storeFrom base i bytes m).mem = writeAt m (place base i) bytes := by
  induction bytes generalizing i m with
  | nil =>
    funext a
    rfl
  | cons b rest ih =>
    rw [length_cons] at hlen
    have hnext : place base (i + 1) = place base i + 1 := by
      rw [place, place, ofNat_add, BitVec.add_assoc]
      rfl
    rw [storeFrom, mem_bind, writeAt_cons (by omega), ← hnext]
    exact ih (by omega) (i + 1) _

lemma mem_storeBytes (m : BitVec w → B) : (storeBytes base bytes m).mem = writeAt m base bytes := by
  rw [storeBytes, mem_storeFrom hlen, place, BitVec.add_zero]

end

/-! ## Scanning

The loop `for (i = 0; i < limit && go(i, base[i]); i++)`: it reads one byte after
the other, up to and including the first that stops it. -/

/-- Where the loop stops, with `n` positions left from `i` on. -/
def scanFrom (base : BitVec w) (go : Nat → B → Bool) : Nat → Nat → Access w B Nat
  | i, 0 => pure i
  | i, n + 1 => do
      let b ← load (place base i)
      if go i b then scanFrom base go (i + 1) n else pure i

def scan (base : BitVec w) (go : Nat → B → Bool) (limit : Nat) : Access w B Nat :=
  scanFrom base go 0 limit

section
variable {P : BitVec w → Prop} (base : BitVec w) (go : Nat → B → Bool) (m : BitVec w → B)

lemma mem_scanFrom (i n : Nat) : (scanFrom base go i n m).mem = m := by
  induction n generalizing i with
  | zero => rfl
  | succ n ih =>
    rw [scanFrom, mem_bind, value_load, mem_load]
    by_cases hgo : go i (m (place base i)) = true
    · rw [if_pos hgo, ih]
    · rw [if_neg hgo, run_pure]

@[simp]
lemma mem_scan (limit : Nat) : (scan base go limit m).mem = m := mem_scanFrom base go m 0 limit

/-- The loop passes over what lets it go on and stops at what does not. -/
lemma scanFrom_value (i n : Nat) : (scanFrom base go i n m).value ≤ i + n ∧
    (∀ k, i ≤ k → k < (scanFrom base go i n m).value → go k (m (place base k)) = true) ∧
    ((scanFrom base go i n m).value < i + n → go (scanFrom base go i n m).value
        (m (place base (scanFrom base go i n m).value)) = false) := by
  induction n generalizing i with
  | zero =>
    refine ⟨Nat.le_refl i, ?_, ?_⟩
    · intro k hik hk
      exact absurd hk (Nat.not_lt.mpr hik)
    intro hlt
    exact absurd hlt (Nat.lt_irrefl i)
  | succ n ih =>
    rw [scanFrom, value_bind, value_load, mem_load]
    by_cases hgo : go i (m (place base i)) = true
    · rw [if_pos hgo]
      obtain ⟨hhigh, hpass, hstop⟩ := ih (i + 1)
      refine ⟨by omega, ?_, ?_⟩
      · intro k hik hk
        rcases Nat.eq_or_lt_of_le hik with rfl | hlt
        · exact hgo
        · exact hpass k hlt hk
      intro hlt
      apply hstop
      omega
    rw [if_neg hgo, run_pure]
    refine ⟨Nat.le_add_right i _, ?_, ?_⟩
    · intro k hik hk
      exact absurd hk (Nat.not_lt.mpr hik)
    intro _
    exact Bool.not_eq_true _ ▸ hgo

lemma scan_value_le (limit : Nat) : (scan base go limit m).value ≤ limit := by
  have h := (scanFrom_value base go m 0 limit).1
  rwa [Nat.zero_add] at h

lemma go_of_lt_scan {limit k : Nat} (hk : k < (scan base go limit m).value) :
  go k (m (place base k)) = true :=
  (scanFrom_value base go m 0 limit).2.1 k (Nat.zero_le k) hk

lemma scan_stopped {limit : Nat} (hlt : (scan base go limit m).value < limit) :
  go (scan base go limit m).value (m (place base (scan base go limit m).value)) = false := by
  apply (scanFrom_value base go m 0 limit).2.2
  rwa [Nat.zero_add]

lemma stays_scanFrom (i n : Nat) : Stays P (scanFrom base go i n) m ↔
    ∀ j, i ≤ j → j < i + n → (∀ k, i ≤ k → k < j → go k (m (place base k)) = true) →
      P (place base j) := by
  induction n generalizing i with
  | zero =>
    constructor
    · intro _ j hij hj
      omega
    intro _
    exact stays_pure i
  | succ n ih =>
    rw [scanFrom, stays_bind, stays_load, value_load, mem_load]
    constructor
    · rintro ⟨hfirst, hrest⟩ j hij hj hpass
      rcases Nat.eq_or_lt_of_le hij with rfl | hlt
      · exact hfirst
      rw [if_pos (hpass i (Nat.le_refl i) hlt), ih] at hrest
      apply hrest j hlt (by omega)
      intro k hik hk
      exact hpass k (by omega) hk
    intro h
    refine ⟨h i (Nat.le_refl i) (by omega) (by omega), ?_⟩
    by_cases hgo : go i (m (place base i)) = true
    · rw [if_pos hgo, ih]
      intro j hij hj hpass
      apply h j (by omega) (by omega)
      intro k hik hk
      rcases Nat.eq_or_lt_of_le hik with rfl | hlt
      · exact hgo
      · exact hpass k hlt hk
    rw [if_neg hgo]
    exact stays_pure i

/-- Position `j` is read exactly when every position before it let the loop go on. -/
lemma stays_scan (limit : Nat) : Stays P (scan base go limit) m ↔
    ∀ j < limit, (∀ k < j, go k (m (place base k)) = true) → P (place base j) := by
  rw [scan, stays_scanFrom]
  simp only [Nat.zero_le, Nat.zero_add, true_implies]

lemma Stays.of_lt_scan {limit k : Nat} (h : Stays P (scan base go limit) m)
  (hk : k < (scan base go limit m).value) : P (place base k) := by
  rw [stays_scan] at h
  apply h k (Nat.lt_of_lt_of_le hk (scan_value_le base go m limit))
  intro i hi
  exact go_of_lt_scan base go m (Nat.lt_trans hi hk)

end

/-- Compare the `len` bytes of a field with those at `base`, up to the first difference. -/
def agrees [DecidableEq B] (field : Nat → B) (base : BitVec w) (len : Nat) : Access w B Bool := do
  let j ← scan base (fun j b => decide (field j = b)) len
  if j = len then pure true
  else do
    let b ← load (place base j)
    pure (decide (field j = b))

section
variable [DecidableEq B] {P : BitVec w → Prop} (field : Nat → B) (base : BitVec w) (len : Nat)
  (m : BitVec w → B)

@[simp]
lemma mem_agrees : (agrees field base len m).mem = m := by
  rw [agrees, mem_bind, mem_scan]
  split <;> rfl

lemma agrees_iff :
  (agrees field base len m).value = true ↔ ∀ j < len, field j = m (place base j) := by
  have hpass : ∀ k < (scan base (fun j b => decide (field j = b)) len m).value,
      field k = m (place base k) := by
    intro k hk
    exact of_decide_eq_true (go_of_lt_scan base (fun j b => decide (field j = b)) m hk)
  rw [agrees, value_bind, mem_scan]
  split
  case isTrue hend =>
    rw [hend] at hpass
    exact iff_of_true rfl hpass
  case isFalse hend =>
    have hlt := Nat.lt_of_le_of_ne (scan_value_le base (fun j b => decide (field j = b)) m len) hend
    have hdiffer := scan_stopped base (fun j b => decide (field j = b)) m hlt
    rw [value_bind, value_load, mem_load, run_pure]
    apply iff_of_false
    · rw [hdiffer]
      exact Bool.false_ne_true
    intro hall
    exact of_decide_eq_false hdiffer (hall _ hlt)

/-- Position `j` is compared exactly when the field and memory agree before it. -/
lemma stays_agrees : Stays P (agrees field base len) m ↔
    ∀ j < len, (∀ k < j, field k = m (place base k)) → P (place base j) := by
  have hscan : Stays P (scan base (fun j b => decide (field j = b)) len) m ↔
      ∀ j < len, (∀ k < j, field k = m (place base k)) → P (place base j) := by
    rw [stays_scan]
    simp only [decide_eq_true_eq]
  rw [agrees, stays_bind, mem_scan, hscan]
  apply and_iff_left_of_imp
  intro h
  split
  case isTrue => exact stays_pure true
  case isFalse hend =>
    -- The second look is at the position where the loop stopped, which it has read.
    rw [stays_bind, stays_load]
    refine ⟨?_, stays_pure _⟩
    apply h _ (Nat.lt_of_le_of_ne (scan_value_le _ _ m len) hend)
    intro k hk
    exact of_decide_eq_true (go_of_lt_scan base (fun j b => decide (field j = b)) m hk)

end

section
variable {P : BitVec w → Prop} {ι : Type} {test : ι → Access w B Bool} {m : BitVec w → B}

lemma findM_cons (x : ι) (l : List ι) : (x :: l).findM? test =
    test x >>= fun found => if found then pure (some x) else l.findM? test := by
  rw [List.findM?]
  congr 1
  funext found
  cases found <;> rfl

variable {l : List ι} (hmem : ∀ x ∈ l, (test x m).mem = m)
include hmem

lemma mem_findM : (l.findM? test m).mem = m := by
  induction l with
  | nil => rfl
  | cons x l ih =>
    rw [findM_cons, mem_bind, hmem x mem_cons_self]
    by_cases hfound : (test x m).value = true
    · rw [if_pos hfound, run_pure]
    rw [if_neg hfound]
    exact ih fun y hy => hmem y (mem_cons_of_mem x hy)

lemma findM_eq_none : (l.findM? test m).value = none ↔ ∀ x ∈ l, (test x m).value = false := by
  induction l with
  | nil => exact iff_of_true rfl (by simp)
  | cons x l ih =>
    rw [findM_cons, value_bind, hmem x mem_cons_self, forall_mem_cons]
    by_cases hfound : (test x m).value = true
    · rw [if_pos hfound, run_pure, hfound]
      simp
    rw [if_neg hfound, ih fun y hy => hmem y (mem_cons_of_mem x hy)]
    exact (and_iff_right (Bool.not_eq_true _ ▸ hfound)).symm

lemma findM_eq_some {x : ι} (hfound : (l.findM? test m).value = some x) :
  x ∈ l ∧ (test x m).value = true := by
  induction l with
  | nil => cases hfound
  | cons y l ih =>
    rw [findM_cons, value_bind, hmem y mem_cons_self] at hfound
    by_cases hyes : (test y m).value = true
    · rw [if_pos hyes, run_pure] at hfound
      obtain rfl : y = x := Option.some.inj hfound
      exact ⟨mem_cons_self, hyes⟩
    rw [if_neg hyes] at hfound
    obtain ⟨hx, hpass⟩ := ih (fun z hz => hmem z (mem_cons_of_mem y hz)) hfound
    exact ⟨mem_cons_of_mem y hx, hpass⟩

lemma findM_value : (l.findM? test m).value = l.find? fun x => (test x m).value := by
  induction l with
  | nil => rfl
  | cons x l ih =>
    rw [findM_cons, value_bind, hmem x mem_cons_self, List.find?_cons]
    cases hfound : (test x m).value with
    | true => rfl
    | false => exact ih fun y hy => hmem y (mem_cons_of_mem x hy)

/-- A search stays inside exactly when every test does, if a test that ends it vouches for all the
others. -/
lemma stays_findM
  (hvouch : ∀ x ∈ l, (test x m).value = true → Stays P (test x) m → ∀ y ∈ l, Stays P (test y) m) :
  Stays P (l.findM? test) m ↔ ∀ x ∈ l, Stays P (test x) m := by
  induction l with
  | nil => exact iff_of_true (stays_pure none) (by simp)
  | cons x l ih =>
    rw [findM_cons, stays_bind, hmem x mem_cons_self, forall_mem_cons]
    apply and_congr_right
    intro hx
    by_cases hfound : (test x m).value = true
    · rw [if_pos hfound]
      apply iff_of_true (stays_pure _)
      intro y hy
      exact hvouch x mem_cons_self hfound hx y (mem_cons_of_mem x hy)
    rw [if_neg hfound]
    apply ih
    · intro y hy
      exact hmem y (mem_cons_of_mem x hy)
    intro y hy hyes hstays z hz
    exact hvouch y (mem_cons_of_mem x hy) hyes hstays z (mem_cons_of_mem x hz)

end

/-! ## Looking up a name -/

/-- Compare with an entry of a table; one without a field never agrees. -/
def entryAgrees [DecidableEq B] (field : Option (Nat → B)) (base : BitVec w) (len : Nat) :
  Access w B Bool :=
  match field with
  | none => pure false
  | some field => agrees field base len

/-- The first of `size` entries that agrees with the `len` bytes at `base`. -/
def lookup [DecidableEq B] (fields : Nat → Option (Nat → B)) (base : BitVec w) (len size : Nat) :
  Access w B (Option Nat) :=
  (List.range size).findM? fun i => entryAgrees (fields i) base len

section
variable [DecidableEq B] {P : BitVec w → Prop} (field : Option (Nat → B))
  (fields : Nat → Option (Nat → B)) (base : BitVec w) (len size : Nat) (m : BitVec w → B)

@[simp]
lemma mem_entryAgrees : (entryAgrees field base len m).mem = m := by
  cases field with
  | none => rfl
  | some field => exact mem_agrees field base len m

lemma entryAgrees_iff : (entryAgrees field base len m).value = true ↔
    ∃ f ∈ field, ∀ j < len, f j = m (place base j) := by
  cases field with
  | none => exact iff_of_false Bool.false_ne_true (by simp)
  | some field =>
    rw [entryAgrees, agrees_iff]
    simp

lemma stays_entryAgrees : Stays P (entryAgrees field base len) m ↔
    ∀ f ∈ field, ∀ j < len, (∀ k < j, f k = m (place base k)) → P (place base j) := by
  cases field with
  | none => exact iff_of_true (stays_pure false) (by simp)
  | some field =>
    rw [entryAgrees, stays_agrees]
    simp

@[simp]
lemma mem_lookup : (lookup fields base len size m).mem = m :=
  mem_findM fun i _ => mem_entryAgrees (fields i) base len m

lemma lookup_eq_none : (lookup fields base len size m).value = none ↔
    ∀ i < size, ∀ f ∈ fields i, ∃ j < len, f j ≠ m (place base j) := by
  rw [lookup, findM_eq_none fun i _ => mem_entryAgrees (fields i) base len m]
  apply forall_congr'
  intro i
  rw [mem_range, ← Bool.not_eq_true, entryAgrees_iff]
  simp

lemma lookup_eq_some {i : Nat} (hfound : (lookup fields base len size m).value = some i) :
  i < size ∧ ∃ f ∈ fields i, ∀ j < len, f j = m (place base j) := by
  obtain ⟨hi, hagree⟩ := findM_eq_some (fun i _ => mem_entryAgrees (fields i) base len m) hfound
  exact ⟨mem_range.mp hi, (entryAgrees_iff (fields i) base len m).mp hagree⟩

/-- A lookup depends on the bytes it compares only, not on where they lie. -/
lemma lookup_congr {base' : BitVec w} {m' : BitVec w → B}
  (hbytes : ∀ j < len, m (place base j) = m' (place base' j)) :
  (lookup fields base len size m).value = (lookup fields base' len size m').value := by
  rw [lookup, lookup, findM_value fun i _ => mem_entryAgrees (fields i) base len m,
    findM_value fun i _ => mem_entryAgrees (fields i) base' len m']
  congr 1
  funext i
  rw [Bool.eq_iff_iff, entryAgrees_iff, entryAgrees_iff]
  apply exists_congr
  intro f
  apply and_congr_right
  intro _
  exact forall₂_congr fun j hj => by rw [hbytes j hj]

/-- A lookup reads position `j` exactly when some entry agrees with memory before it. -/
lemma stays_lookup : Stays P (lookup fields base len size) m ↔
    ∀ i < size, ∀ f ∈ fields i, ∀ j < len,
      (∀ k < j, f k = m (place base k)) → P (place base j) := by
  rw [lookup, stays_findM fun i _ => mem_entryAgrees (fields i) base len m]
  · simp only [mem_range, stays_entryAgrees]
  intro i _ hfound hstays i' _
  obtain ⟨f, hf, hagree⟩ := (entryAgrees_iff (fields i) base len m).mp hfound
  rw [stays_entryAgrees] at hstays ⊢
  intro f' _ j hj _
  apply hstays f hf j hj
  intro k hk
  exact hagree k (Nat.lt_trans hk hj)

end
end Access
end Aeos.Lib
