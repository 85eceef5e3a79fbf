/-
# Bytes in memory

Copying a range of cells into a memory, and 32-bit little-endian words in a
memory of bytes.
-/

import Aeos.Lib.Bits
import Mathlib.Data.UInt
import Mathlib.Tactic.Ring

namespace Aeos.Lib

/-- The memory with the `n` cells from `off` on replaced by the first `n` of `src`. -/
def overwrite {α : Type*} (m : Nat → α) (off n : Nat) (src : Nat → α) : Nat → α :=
  fun a => if off ≤ a ∧ a < off + n then src (a - off) else m a

section
variable {α : Type*} {m : Nat → α} {off n : Nat} {src : Nat → α}

lemma overwrite_inside {j : Nat} (hj : j < n) : overwrite m off n src (off + j) = src j := by
  have hrange : off ≤ off + j ∧ off + j < off + n := by omega
  rw [overwrite, if_pos hrange, Nat.add_sub_cancel_left]

lemma overwrite_zero {j : Nat} (hj : j < n) : overwrite m 0 n src j = src j := by
  rw [← Nat.zero_add j, overwrite_inside hj, Nat.zero_add]

lemma overwrite_outside {a : Nat} (ha : a < off ∨ off + n ≤ a) : overwrite m off n src a = m a := by
  have hrange : ¬ (off ≤ a ∧ a < off + n) := by omega
  rw [overwrite, if_neg hrange]

end

lemma getD_drop (bytes : List UInt8) (k i : Nat) :
  (bytes.drop k).getD i 0 = bytes.getD (k + i) 0 := by
  rw [List.getD_eq_getElem?_getD, List.getElem?_drop, ← List.getD_eq_getElem?_getD]

lemma getD_take {bytes : List UInt8} {k i : Nat} (hi : i < k) :
  (bytes.take k).getD i 0 = bytes.getD i 0 := by
  rw [List.getD_eq_getElem?_getD, List.getElem?_take_of_lt hi, ← List.getD_eq_getElem?_getD]

/-! ## Machine integers -/

/-- Arithmetic of a 16-bit unsigned integer. -/
def u16 (n : Nat) : Nat := n % 2 ^ 16

/-- Arithmetic of a 32-bit unsigned integer. -/
def u32 (n : Nat) : Nat := n % 2 ^ 32

lemma u32_lt (n : Nat) : u32 n < 2 ^ 32 := Nat.mod_lt _ (by decide)

lemma u32_of_lt {n : Nat} (hn : n < 2 ^ 32) : u32 n = n := Nat.mod_eq_of_lt hn

/-- Byte `k` of a word, least significant first. -/
def leByte (x k : Nat) : UInt8 := UInt8.ofNat (x / 256 ^ k)

/-- The 32-bit word whose least significant byte is at `off`. -/
def leWord (b : Nat → UInt8) (off : Nat) : Nat :=
  (b off).toNat + 2 ^ 8 * (b (off + 1)).toNat + 2 ^ 16 * (b (off + 2)).toNat +
    2 ^ 24 * (b (off + 3)).toNat

lemma leWord_lt (b : Nat → UInt8) (off : Nat) : leWord b off < 2 ^ 32 := by
  have h₀ := (b off).toNat_lt
  have h₁ := (b (off + 1)).toNat_lt
  have h₂ := (b (off + 2)).toNat_lt
  have h₃ := (b (off + 3)).toNat_lt
  simp only [leWord]
  omega

lemma leWord_of_leByte {b : Nat → UInt8} {off x : Nat} (hx : x < 2 ^ 32)
  (hb : ∀ k < 4, b (off + k) = leByte x k) : leWord b off = x := by
  have h₀ : b off = leByte x 0 := hb 0 (by decide)
  rw [leWord, h₀, hb 1 (by decide), hb 2 (by decide), hb 3 (by decide)]
  simp only [leByte, UInt8.toNat_ofNat']
  omega

lemma leWord_congr {b b' : Nat → UInt8} {off : Nat}
  (h : ∀ k < 4, b (off + k) = b' (off + k)) : leWord b off = leWord b' off := by
  have h₀ : b off = b' off := h 0 (by decide)
  rw [leWord, leWord, h₀, h 1 (by decide), h 2 (by decide), h 3 (by decide)]

/-! ## What a sequence of writes leaves, latest first -/

section

/-- Some bytes, and where they were written. -/
structure Write where
  offset : Nat
  bytes : List UInt8
  deriving DecidableEq

namespace Write

def stop (w : Write) : Nat := w.offset + w.bytes.length

/-- The byte the write puts at a position. -/
def byteAt (w : Write) (p : Nat) : Option UInt8 :=
  if w.offset ≤ p ∧ p < w.stop then some (w.bytes.getD (p - w.offset) 0) else none

end Write

def highestEnd : List Write → Nat
  | [] => 0
  | w :: rest => max w.stop (highestEnd rest)

/-- The byte of the latest write at a position. -/
def lastByte (writes : List Write) (p : Nat) : Option UInt8 := writes.findSome? fun w => w.byteAt p

lemma lastByte_cons (w : Write) (rest : List Write) (p : Nat) :
  lastByte (w :: rest) p = (w.byteAt p).or (lastByte rest p) := by
  rw [lastByte, List.findSome?_cons]
  cases w.byteAt p <;> rfl

variable {writes : List Write}

lemma lt_highestEnd {p : Nat} {b : UInt8}
  (h : lastByte writes p = some b) : p < highestEnd writes := by
  induction writes with
  | nil => cases h
  | cons w rest ih =>
    rw [lastByte_cons, Option.or_eq_some_iff] at h
    rcases h with hw | ⟨_, hrest⟩
    · have hin : w.offset ≤ p ∧ p < w.stop := by
        by_contra hout
        rw [Write.byteAt, if_neg hout] at hw
        cases hw
      exact lt_of_lt_of_le hin.2 (le_max_left _ _)
    · exact lt_of_lt_of_le (ih hrest) (le_max_right _ _)

/-- A memory that holds the latest bytes still does after one more write. -/
lemma holds_overwrite {m : Nat → UInt8}
  (h : ∀ p b, lastByte writes p = some b → m p = b) (w : Write) {p : Nat} {b : UInt8}
  (hb : lastByte (w :: writes) p = some b) :
  overwrite m w.offset w.bytes.length (fun j => w.bytes.getD j 0) p = b := by
  rw [lastByte_cons] at hb
  unfold Write.byteAt at hb
  unfold overwrite
  split_ifs at hb ⊢ with hin hin'
  · exact Option.some.inj hb
  · exact absurd hin hin'
  · rename_i hin'
    exact absurd hin' hin
  · exact h p b hb

end

open List

/-- The number whose bytes are listed most significant first. -/
def beVal (bytes : List UInt8) : Nat := bytes.foldl (fun n c => n * 256 + c.toNat) 0

lemma foldl_beVal (bytes : List UInt8) (n : Nat) :
  bytes.foldl (fun n c => n * 256 + c.toNat) n = n * 256 ^ bytes.length + beVal bytes := by
  induction bytes generalizing n with
  | nil => simp [beVal]
  | cons c bytes ih =>
    have hcons : beVal (c :: bytes) = (0 * 256 + c.toNat) * 256 ^ bytes.length + beVal bytes :=
      ih _
    rw [foldl_cons, ih, hcons, length_cons]
    ring

lemma beVal_append (xs ys : List UInt8) :
  beVal (xs ++ ys) = beVal xs * 256 ^ ys.length + beVal ys := by
  rw [beVal, foldl_append, foldl_beVal, ← beVal]

lemma beVal_lt (bytes : List UInt8) : beVal bytes < 256 ^ bytes.length := by
  induction bytes with
  | nil => simp [beVal]
  | cons c bytes ih =>
    have hc := c.toNat_lt
    have hcons : beVal (c :: bytes) = c.toNat * 256 ^ bytes.length + beVal bytes := by
      rw [← singleton_append, beVal_append]
      simp [beVal]
    calc beVal (c :: bytes) < c.toNat * 256 ^ bytes.length + 256 ^ bytes.length := by omega
      _ = (c.toNat + 1) * 256 ^ bytes.length := by ring
      _ ≤ 256 * 256 ^ bytes.length := Nat.mul_le_mul_right _ (by omega)
      _ = 256 ^ (c :: bytes).length := by rw [length_cons]; ring

/-- A 32-bit word as four bytes. -/
def beBytes (n : Nat) : List UInt8 :=
  [UInt8.ofNat (n / 2 ^ 24), UInt8.ofNat (n / 2 ^ 16), UInt8.ofNat (n / 2 ^ 8), UInt8.ofNat n]

@[simp]
lemma length_beBytes (n : Nat) : (beBytes n).length = 4 := rfl

lemma beVal_beBytes {n : Nat} (hn : n < 2 ^ 32) : beVal (beBytes n) = n := by
  simp only [beVal, beBytes, foldl_cons, foldl_nil, UInt8.toNat_ofNat']
  omega

/-- The bytes of a 32-bit word in the opposite order. -/
def byteSwap (v : Nat) : Nat :=
  u32 ((v &&& 0xFF) <<< 24) ||| u32 ((v &&& 0xFF00) <<< 8) ||| ((v >>> 8) &&& 0xFF00) |||
    ((v >>> 24) &&& 0xFF)

lemma and_byte (v : Nat) : v &&& 0xFF = v % 256 :=
  Nat.and_two_pow_sub_one_eq_mod v 8

lemma and_second_byte (v : Nat) : v &&& 0xFF00 = v / 256 % 256 * 256 := by
  have hmask : (0xFF00 : Nat) = bitsFrom 8 16 := by decide
  rw [hmask, and_bitsFrom (by decide)]
  omega

lemma byteSwap_eq (v : Nat) :
  byteSwap v = v % 256 * 2 ^ 24 + v / 2 ^ 8 % 256 * 2 ^ 16 + v / 2 ^ 16 % 256 * 2 ^ 8 +
    v / 2 ^ 24 % 256 := by
  have hfirst : u32 ((v &&& 0xFF) <<< 24) = v % 256 * 2 ^ 24 := by
    rw [and_byte, Nat.shiftLeft_eq, u32_of_lt (by omega)]
  have hsecond : u32 ((v &&& 0xFF00) <<< 8) = v / 2 ^ 8 % 256 * 2 ^ 16 := by
    rw [and_second_byte, Nat.shiftLeft_eq, u32_of_lt (by omega)]
    omega
  have hthird : (v >>> 8) &&& 0xFF00 = v / 2 ^ 16 % 256 * 2 ^ 8 := by
    rw [and_second_byte, Nat.shiftRight_eq_div_pow]
    omega
  have hfourth : (v >>> 24) &&& 0xFF = v / 2 ^ 24 % 256 := by
    rw [and_byte, Nat.shiftRight_eq_div_pow]
  have hor : v % 256 * 2 ^ 24 ||| v / 2 ^ 8 % 256 * 2 ^ 16 =
      v % 256 * 2 ^ 24 + v / 2 ^ 8 % 256 * 2 ^ 16 := or_of_aligned (k := 24) (by omega) (by omega)
  rw [byteSwap, hfirst, hsecond, hthird, hfourth, hor,
    or_of_aligned (x := v % 256 * 2 ^ 24 + v / 2 ^ 8 % 256 * 2 ^ 16) (k := 16) (by omega)
      (by omega),
    or_of_aligned (k := 8) (by omega) (by omega)]

/-- The bytes lie in memory from `off` on. -/
def BytesAt (b : Nat → UInt8) (off : Nat) : List UInt8 → Prop
  | [] => True
  | c :: bytes => b off = c ∧ BytesAt b (off + 1) bytes

instance BytesAt.decidable (b : Nat → UInt8) (off : Nat) :
  (bytes : List UInt8) → Decidable (BytesAt b off bytes)
  | [] => isTrue trivial
  | c :: bytes =>
    have := BytesAt.decidable b (off + 1) bytes
    inferInstanceAs (Decidable (b off = c ∧ BytesAt b (off + 1) bytes))

variable {b : Nat → UInt8} {off : Nat} {bytes : List UInt8}

lemma bytesAt_append {xs ys : List UInt8} :
  BytesAt b off (xs ++ ys) ↔ BytesAt b off xs ∧ BytesAt b (off + xs.length) ys := by
  induction xs generalizing off with
  | nil => simp [BytesAt]
  | cons c xs ih =>
    rw [cons_append, BytesAt, ih, BytesAt, and_assoc, length_cons,
      show off + 1 + xs.length = off + (xs.length + 1) by omega]

/-- The big-endian word at `off`. -/
def beWord (b : Nat → UInt8) (off : Nat) : Nat :=
  beVal [b off, b (off + 1), b (off + 2), b (off + 3)]

lemma byteSwap_leWord (b : Nat → UInt8) (off : Nat) : byteSwap (leWord b off) = beWord b off := by
  have h₀ := (b off).toNat_lt
  have h₁ := (b (off + 1)).toNat_lt
  have h₂ := (b (off + 2)).toNat_lt
  have h₃ := (b (off + 3)).toNat_lt
  have hbytes : leWord b off % 256 = (b off).toNat ∧
      leWord b off / 2 ^ 8 % 256 = (b (off + 1)).toNat ∧
      leWord b off / 2 ^ 16 % 256 = (b (off + 2)).toNat ∧
      leWord b off / 2 ^ 24 % 256 = (b (off + 3)).toNat := by
    unfold leWord
    refine ⟨?_, ?_, ?_, ?_⟩ <;> omega
  rw [byteSwap_eq, hbytes.1, hbytes.2.1, hbytes.2.2.1, hbytes.2.2.2]
  simp only [beWord, beVal, foldl_cons, foldl_nil]
  omega

lemma beWord_of_bytesAt (h : BytesAt b off bytes) (hlen : bytes.length = 4) :
  beWord b off = beVal bytes := by
  match bytes, hlen with
  | [_, _, _, _], _ =>
    obtain ⟨rfl, rfl, rfl, rfl, -⟩ := h
    rfl

end Aeos.Lib
