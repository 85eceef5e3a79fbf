/-
# Numbers as decimal text

The digits a loop of divisions by ten peels off, the text they make, and a loop that
reads text back in the arithmetic of an unsigned integer. Reading inverts writing, up
to the size of that integer.
-/

import Aeos.Lib.Bytes
import Mathlib.Data.List.TakeWhile
import Mathlib.Data.Nat.Digits.Lemmas

namespace Aeos.Lib

open List

def digitChar (d : Nat) : UInt8 := UInt8.ofNat (48 + d)

def isDigit (b : UInt8) : Bool := 48 ≤ b ∧ b ≤ 57

/-- `while (v) { rev[r++] = '0' + v % 10; v /= 10; }`. -/
def peelDigits (v : Nat) : List UInt8 := (Nat.digits 10 v).map digitChar

/-- The decimal text of a number, most significant digit first. -/
def decText (v : Nat) : List UInt8 := (if v = 0 then [48] else []) ++ (peelDigits v).reverse

/-- One character of a number read in arithmetic modulo `m`. -/
def readDigit (m count : Nat) (b : UInt8) : Nat := (count * 10 + (b.toNat - 48)) % m

/-- The number at the start of a text, in arithmetic modulo `m`. -/
def readDec (m : Nat) (text : List UInt8) : Nat := (text.takeWhile isDigit).foldl (readDigit m) 0

/-- The number a text of digits stands for, appended to the digits of `count`. -/
def decValue (count : Nat) (text : List UInt8) : Nat :=
  text.foldl (fun n b => n * 10 + (b.toNat - 48)) count

lemma le_decValue (count : Nat) (text : List UInt8) : count ≤ decValue count text := by
  induction text generalizing count with
  | nil => exact Nat.le_refl count
  | cons b text ih =>
    calc count ≤ count * 10 + (b.toNat - 48) := by omega
      _ ≤ decValue count (b :: text) := ih _

lemma toNat_digitChar {d : Nat} (hd : d < 10) : (digitChar d).toNat = 48 + d := by
  rw [digitChar, UInt8.toNat_ofNat']
  omega

lemma isDigit_digitChar {d : Nat} (hd : d < 10) : isDigit (digitChar d) = true := by
  have hchar := toNat_digitChar hd
  simp only [isDigit, decide_eq_true_eq, UInt8.le_iff_toNat_le, hchar]
  exact ⟨Nat.le_add_right 48 d, Nat.add_le_add_left (Nat.le_of_lt_succ hd) 48⟩

lemma isDigit_of_mem_decText {v : Nat} {b : UInt8} (hb : b ∈ decText v) : isDigit b = true := by
  rcases mem_append.mp hb with hb | hb
  · split_ifs at hb
    · rw [mem_singleton.mp hb]
      decide
    · cases hb
  obtain ⟨d, hd, rfl⟩ := mem_map.mp (mem_reverse.mp hb)
  exact isDigit_digitChar (Nat.digits_lt_base (by decide) hd)

lemma foldl_readDigit (m : Nat) (ds : List Nat) (hds : ∀ d ∈ ds, d < 10) (count : Nat) :
  (ds.map digitChar).foldl (readDigit m) (count % m) =
    (ds.foldl (fun count d => count * 10 + d) count) % m := by
  induction ds generalizing count with
  | nil => rfl
  | cons d ds ih =>
    have hd := toNat_digitChar (hds d mem_cons_self)
    have hone : readDigit m (count % m) (digitChar d) = (count * 10 + d) % m := by
      rw [readDigit, hd, Nat.add_sub_cancel_left, Nat.add_mod, Nat.mod_mul_mod, ← Nat.add_mod]
    rw [map_cons, foldl_cons, foldl_cons, hone]
    exact ih (fun d hd => hds d (mem_cons_of_mem _ hd)) _

lemma foldl_reverse_digits (v : Nat) :
  (Nat.digits 10 v).reverse.foldl (fun count d => count * 10 + d) 0 = v := by
  have hvalue := Nat.ofDigits_digits 10 v
  rw [Nat.ofDigits_eq_foldr] at hvalue
  rw [foldl_reverse]
  refine Eq.trans ?_ hvalue
  congr 1
  funext d count
  rw [Nat.add_comm, Nat.mul_comm]
  rfl

lemma readDec_decText (m v : Nat) : readDec m (decText v) = v % m := by
  rw [readDec, takeWhile_eq_self_iff.mpr fun b hb => isDigit_of_mem_decText hb]
  by_cases hv : v = 0
  · subst hv
    exact Nat.zero_mod m
  rw [decText, if_neg hv, nil_append, peelDigits, ← map_reverse]
  have hds : ∀ d ∈ (Nat.digits 10 v).reverse, d < 10 :=
    fun d hd => Nat.digits_lt_base (by decide) (mem_reverse.mp hd)
  have hread := foldl_readDigit m _ hds 0
  rwa [Nat.zero_mod, foldl_reverse_digits] at hread

lemma length_peelDigits_le {v n : Nat} (hv : v < 10 ^ n) : (peelDigits v).length ≤ n := by
  rw [peelDigits, length_map]
  exact (Nat.digits_length_le_iff (by decide) v).mpr hv

lemma length_decText_le {v n : Nat} (hv : v < 10 ^ (n + 1)) : (decText v).length ≤ n + 1 := by
  by_cases hzero : v = 0
  · rw [hzero]
    exact Nat.le_add_left 1 n
  rw [decText, if_neg hzero, nil_append, length_reverse]
  exact length_peelDigits_le hv

lemma decText_ne_nil (v : Nat) : decText v ≠ [] := by
  by_cases hzero : v = 0
  · rw [hzero]
    exact cons_ne_nil _ _
  rw [decText, if_neg hzero, nil_append, peelDigits]
  simpa [Nat.digits_eq_nil_iff_eq_zero] using hzero

end Aeos.Lib
