/-
# Ones'-complement sums

The sum of the big-endian 16-bit words of a message, with the carries added back in. Folding
keeps the sum modulo 65535 and tells zero from the other multiples, so a message passes the
receiver's check exactly when its sum is a positive multiple of 65535.
-/

import Mathlib.Data.UInt

namespace Aeos.Lib

open List

/-- The sum of the big-endian words; a last odd byte is the high half of its word. -/
def wordSum : List UInt8 → Nat
  | [] => 0
  | [a] => a.toNat * 256
  | a :: b :: rest => a.toNat * 256 + b.toNat + wordSum rest

/-- The carries are added back in until there are none. -/
def foldCarries : Nat → Nat → Nat
  | 0, n => n
  | fuel + 1, n => if n / 65536 = 0 then n else foldCarries fuel (n % 65536 + n / 65536)

/-- The ones'-complement sum of a number of any size. -/
def onesSum (n : Nat) : Nat := foldCarries n n

/-- The big-endian words; a last odd byte is the high half of its word. -/
def words : List UInt8 → List Nat
  | [] => []
  | [a] => [a.toNat * 256]
  | a :: b :: rest => (a.toNat * 256 + b.toNat) :: words rest

/-- Ones'-complement addition: a carry out of sixteen bits is added back in. -/
def onesAdd (a b : Nat) : Nat := (a + b) % 65536 + (a + b) / 65536

/-- The receiver's check. -/
def ChecksumValid (bytes : List UInt8) : Prop := onesSum (wordSum bytes) = 0xFFFF

instance ChecksumValid.decidable (bytes : List UInt8) : Decidable (ChecksumValid bytes) :=
  inferInstanceAs (Decidable (onesSum (wordSum bytes) = 0xFFFF))

lemma foldCarries_modEq (fuel n : Nat) : foldCarries fuel n ≡ n [MOD 65535] := by
  induction fuel generalizing n with
  | zero => rfl
  | succ fuel ih =>
    rw [foldCarries]
    split
    · rfl
    refine (ih _).trans ?_
    show (n % 65536 + n / 65536) % 65535 = n % 65535
    omega

lemma foldCarries_lt {fuel n : Nat} (hfuel : n ≤ fuel) : foldCarries fuel n < 65536 := by
  induction fuel generalizing n with
  | zero =>
    rw [foldCarries]
    omega
  | succ fuel ih =>
    rw [foldCarries]
    split
    · omega
    · exact ih (by omega)

lemma foldCarries_eq_zero (fuel n : Nat) : foldCarries fuel n = 0 ↔ n = 0 := by
  induction fuel generalizing n with
  | zero => rfl
  | succ fuel ih =>
    rw [foldCarries]
    split
    · rfl
    rw [ih]
    omega

lemma onesSum_lt (n : Nat) : onesSum n < 65536 := foldCarries_lt le_rfl

lemma onesSum_modEq (n : Nat) : onesSum n ≡ n [MOD 65535] := foldCarries_modEq n n

lemma onesSum_eq_zero (n : Nat) : onesSum n = 0 ↔ n = 0 := foldCarries_eq_zero n n

lemma onesSum_eq_iff (n : Nat) : onesSum n = 0xFFFF ↔ n ≠ 0 ∧ n % 65535 = 0 := by
  have hlt := onesSum_lt n
  have hmod : onesSum n % 65535 = n % 65535 := onesSum_modEq n
  have hzero := onesSum_eq_zero n
  omega

/-! ## Messages -/

lemma wordSum_append {xs : List UInt8} (hxs : xs.length % 2 = 0) (ys : List UInt8) :
  wordSum (xs ++ ys) = wordSum xs + wordSum ys := by
  match xs with
  | [] => simp [wordSum]
  | [_] => simp at hxs
  | a :: b :: xs =>
    have hrest : xs.length % 2 = 0 := by
      simp only [length_cons] at hxs
      omega
    rw [cons_append, cons_append, wordSum, wordSum, wordSum_append hrest]
    omega

lemma wordSum_le (bytes : List UInt8) : wordSum bytes ≤ 65535 * ((bytes.length + 1) / 2) := by
  match bytes with
  | [] => exact Nat.zero_le _
  | [a] =>
    have ha := a.toNat_lt
    simp only [wordSum, length_singleton]
    omega
  | a :: b :: bytes =>
    have ha := a.toNat_lt
    have hb := b.toNat_lt
    have hrest := wordSum_le bytes
    simp only [wordSum, length_cons]
    omega

lemma wordSum_take_add_drop {k : Nat} (hk : k % 2 = 0) (bytes : List UInt8) :
  wordSum (bytes.take k) + wordSum (bytes.drop k) = wordSum bytes := by
  rcases le_total k bytes.length with hle | hle
  · have htake : (bytes.take k).length % 2 = 0 := by
      rw [length_take_of_le hle]
      exact hk
    rw [← wordSum_append htake, take_append_drop]
  rw [take_of_length_le hle, drop_of_length_le hle]
  rfl

lemma onesAdd_lt {a b : Nat} (ha : a < 65536) (hb : b < 65536) : onesAdd a b < 65536 := by
  rw [onesAdd]
  omega

lemma onesSum_congr {m n : Nat} (hmod : m % 65535 = n % 65535) (hzero : m = 0 ↔ n = 0) :
  onesSum m = onesSum n := by
  have hm : onesSum m % 65535 = m % 65535 := onesSum_modEq m
  have hn : onesSum n % 65535 = n % 65535 := onesSum_modEq n
  have := onesSum_lt m
  have := onesSum_lt n
  have := onesSum_eq_zero m
  have := onesSum_eq_zero n
  omega

lemma onesSum_of_lt {n : Nat} (hn : n < 65536) : onesSum n = n := by
  have hmod : onesSum n % 65535 = n % 65535 := onesSum_modEq n
  have := onesSum_lt n
  have := onesSum_eq_zero n
  omega

/-- The carries may be added back in after each word or once at the end. -/
lemma foldl_onesAdd (bytes : List UInt8) {sum : Nat} (hsum : sum < 65536) :
  (words bytes).foldl onesAdd sum = onesSum (sum + wordSum bytes) := by
  match bytes with
  | [] => rw [words, foldl_nil, wordSum, Nat.add_zero, onesSum_of_lt hsum]
  | [a] =>
    have ha := a.toNat_lt
    rw [words, foldl_cons, foldl_nil, wordSum,
      ← onesSum_of_lt (onesAdd_lt hsum (by omega))]
    exact onesSum_congr (by rw [onesAdd]; omega) (by rw [onesAdd]; omega)
  | a :: b :: rest =>
    have ha := a.toNat_lt
    have hb := b.toNat_lt
    rw [words, foldl_cons, foldl_onesAdd rest (onesAdd_lt hsum (by omega)), wordSum]
    exact onesSum_congr (by rw [onesAdd]; omega) (by rw [onesAdd]; omega)

/-- The value of the field when its bytes are swapped. -/
def swapped (ck : Nat) : Nat := ck % 256 * 256 + ck / 256

/-- A number and its swap agree modulo 65535 only if its two bytes are equal. -/
lemma swapped_modEq_iff {ck : Nat} (hck : ck < 65536) :
  swapped ck ≡ ck [MOD 65535] ↔ ck % 256 = ck / 256 := by
  show swapped ck % 65535 = ck % 65535 ↔ _
  unfold swapped
  omega

/-- The check on a part `sent` of a message when the checksum of the whole is in its field with
its bytes swapped. -/
lemma swapped_valid_iff (sent dropped : Nat) :
  onesSum (sent + swapped (0xFFFF - onesSum (sent + dropped))) = 0xFFFF ↔
    swapped (0xFFFF - onesSum (sent + dropped)) ≡
      0xFFFF - onesSum (sent + dropped) + dropped [MOD 65535] ∧
    (sent ≠ 0 ∨ 0xFFFF - onesSum (sent + dropped) ≠ 0) := by
  have hlt := onesSum_lt (sent + dropped)
  have hmod : onesSum (sent + dropped) % 65535 = (sent + dropped) % 65535 := onesSum_modEq _
  generalize onesSum (sent + dropped) = sum at hlt hmod
  rw [onesSum_eq_iff]
  show _ ↔ swapped (0xFFFF - sum) % 65535 = (0xFFFF - sum + dropped) % 65535 ∧ _
  unfold swapped
  omega

/-- When the whole message is sent, the two bytes of the checksum have to be equal. -/
lemma swapped_valid_iff_of_all (sum : Nat) :
  onesSum (sum + swapped (0xFFFF - onesSum sum)) = 0xFFFF ↔
    (0xFFFF - onesSum sum) % 256 = (0xFFFF - onesSum sum) / 256 := by
  have hall := swapped_valid_iff sum 0
  have hzero := onesSum_eq_zero sum
  rw [Nat.add_zero, Nat.add_zero, swapped_modEq_iff (by omega)] at hall
  rw [hall]
  constructor
  · exact fun h => h.1
  intro h
  refine ⟨h, ?_⟩
  omega

end Aeos.Lib
