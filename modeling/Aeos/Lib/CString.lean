/-
# NUL-terminated strings in byte buffers

A C string held in a buffer is the part before the first NUL. Bytes after the end of the buffer read
as NUL, which covers a string literal and a zero-padded field. Comparing all bytes of two fields
compares their strings only if both are zero-padded.
-/

import Aeos.Lib.Access
import Mathlib.Data.List.TakeWhile

namespace Aeos.Lib

open List

section

/-- The characters of a message. -/
def ascii (text : String) : List UInt8 := text.toList.map fun ch => UInt8.ofNat ch.toNat

/-- The string a byte buffer holds: everything before its first NUL. -/
def cstr (buffer : List UInt8) : List UInt8 :=
  buffer.takeWhile (· ≠ 0)

lemma ne_zero_of_mem_cstr {buffer : List UInt8} {b : UInt8} (hb : b ∈ cstr buffer) : b ≠ 0 := by
  simpa using mem_takeWhile_imp hb

variable {text : List UInt8}

lemma cstr_append_replicate (htext : ∀ b ∈ text, b ≠ 0) (n : Nat) :
  cstr (text ++ List.replicate n 0) = text := by
  rw [cstr, takeWhile_append_of_pos (by simpa using htext)]
  cases n <;> simp [replicate_succ]

lemma cstr_append_cons (htext : ∀ b ∈ text, b ≠ 0) (b : UInt8)
  (rest : List UInt8) : cstr (text ++ b :: rest) = text ↔ b = 0 := by
  rw [cstr, takeWhile_append_of_pos (by simpa using htext), append_right_eq_self,
    takeWhile_cons]
  by_cases hb : b = 0 <;> simp [hb]

lemma cstr_append_of_zero_mem (hend : 0 ∈ text) (rest : List UInt8) :
    cstr (text ++ rest) = cstr text := by
  induction text with
  | nil => cases hend
  | cons b text ih =>
    by_cases hb : b = 0
    · simp [cstr, hb]
    · have hrest := ih ((mem_cons.mp hend).resolve_left (Ne.symm hb))
      simpa [cstr, hb] using hrest

end

/-! ## Strings in fixed-width fields -/

variable {len : Nat}

/-- The `len` bytes at `base`. -/
def fieldAt {w : Nat} (len : Nat) (m : BitVec w → UInt8) (base : BitVec w) : Fin len → UInt8 :=
  fun j => m (place base j)

/-- Nothing but zeros after the first NUL. -/
def ZeroPadded (f : Fin len → UInt8) : Prop := ∀ j k, j ≤ k → f j = 0 → f k = 0

instance (f : Fin len → UInt8) : Decidable (ZeroPadded f) :=
  inferInstanceAs (Decidable (∀ _ _, _ → _ → _))

/-- The fields agree up to and including the first NUL. -/
def SameString (f g : Fin len → UInt8) : Prop := ∀ j, (∀ k < j, f k ≠ 0) → f j = g j

instance (f g : Fin len → UInt8) : Decidable (SameString f g) :=
  inferInstanceAs (Decidable (∀ _, _ → _))

/-- The string of a field with zeros behind it. -/
def zeroPad (f : Fin len → UInt8) : Fin len → UInt8 :=
  fun j => if ∀ k ≤ j, f k ≠ 0 then f j else 0

section
variable {f g : Fin len → UInt8}

lemma SameString.ne_zero (hsame : SameString f g) {j : Fin len} (hj : ∀ k < j, g k ≠ 0) :
  ∀ k < j, f k ≠ 0 := by
  intro k
  induction k using WellFoundedLT.induction with
  | ind k ih =>
    intro hk
    rw [hsame k fun i hi => ih i hi (hi.trans hk)]
    exact hj k hk

lemma SameString.symm (hsame : SameString f g) : SameString g f :=
  fun j hj => (hsame j (hsame.ne_zero hj)).symm

lemma ZeroPadded.eq_of_sameString (hf : ZeroPadded f) (hg : ZeroPadded g)
  (hsame : SameString f g) : f = g := by
  funext j
  induction j using WellFoundedLT.induction with
  | ind j ih =>
    by_cases hbefore : ∀ k < j, f k ≠ 0
    · exact hsame j hbefore
    simp only [not_forall, not_not] at hbefore
    obtain ⟨k, hk, hzero⟩ := hbefore
    rw [hf k j hk.le hzero, hg k j hk.le ((ih k hk).symm.trans hzero)]

lemma zeroPadded_zeroPad (f : Fin len → UInt8) : ZeroPadded (zeroPad f) := by
  intro j k hjk hzero
  unfold zeroPad at hzero ⊢
  by_cases hall : ∀ i ≤ k, f i ≠ 0
  · rw [if_pos fun i hi => hall i (hi.trans hjk)] at hzero
    exact absurd hzero (hall j hjk)
  · exact if_neg hall

lemma sameString_zeroPad (f : Fin len → UInt8) : SameString f (zeroPad f) := by
  intro j hbefore
  unfold zeroPad
  by_cases hj : f j = 0
  · rw [if_neg fun hall => hall j le_rfl hj, hj]
  refine (if_pos fun k hk => ?_).symm
  rcases hk.lt_or_eq with hlt | rfl
  · exact hbefore k hlt
  · exact hj

lemma ZeroPadded.zeroPad_eq (hf : ZeroPadded f) : zeroPad f = f :=
  (zeroPadded_zeroPad f).eq_of_sameString hf (sameString_zeroPad f).symm

/-- A string copied into a field, up to its NUL and with zeros behind it. -/
lemma getD_cstr (text : List UInt8) (j : Nat) :
  (cstr text).getD j 0 = if ∀ k ≤ j, text.getD k 0 ≠ 0 then text.getD j 0 else 0 := by
  induction text generalizing j with
  | nil =>
    exact (ite_self 0).symm
  | cons b text ih =>
    by_cases hb : b = 0
    · have hstop : ¬ ∀ k ≤ j, (b :: text).getD k 0 ≠ 0 := fun hall => hall 0 (Nat.zero_le j) hb
      rw [if_neg hstop]
      simp [cstr, hb]
    have hcons : cstr (b :: text) = b :: cstr text := by simp [cstr, hb]
    rw [hcons]
    cases j with
    | zero => simp [hb]
    | succ j =>
      have hshift : (∀ k ≤ j + 1, (b :: text).getD k 0 ≠ 0) ↔ ∀ k ≤ j, text.getD k 0 ≠ 0 := by
        constructor
        · intro hall k hk
          exact hall (k + 1) (by omega)
        intro hall k hk
        cases k with
        | zero => exact hb
        | succ k => exact hall k (by omega)
      simp only [List.getD_cons_succ, ih, hshift]

lemma getD_take_cstr (text : List UInt8) : (fun j : Fin len => ((cstr text).take len).getD j 0) =
    zeroPad fun j : Fin len => text.getD j 0 := by
  funext j
  have htake : ((cstr text).take len).getD j 0 = (cstr text).getD j 0 := by
    rw [List.getD_eq_getElem?_getD, List.getElem?_take_of_lt j.isLt, List.getD_eq_getElem?_getD]
  have hall : (∀ k ≤ (j : Nat), text.getD k 0 ≠ 0) ↔ ∀ k ≤ j, text.getD (k : Fin len) 0 ≠ 0 :=
    ⟨fun h k hk => h k hk, fun h k hk => h ⟨k, lt_of_le_of_lt hk j.isLt⟩ hk⟩
  simp only [htake, getD_cstr, zeroPad, hall]

end

section
variable {w : Nat} {fields : Nat → Option (Nat → UInt8)} {size : Nat} {m : BitVec w → UInt8}
  {base : BitVec w}

variable (hfields : ∀ i < size, ∀ f ∈ fields i, ZeroPadded fun j : Fin len => f j)
include hfields

/-- A table of zero-padded names has no entry for a buffer that is not. -/
lemma lookup_of_not_zeroPadded (hbuffer : ¬ ZeroPadded (fieldAt len m base)) :
  (Access.lookup fields base len size m).value = none := by
  cases hfound : (Access.lookup fields base len size m).value with
  | none => rfl
  | some i =>
    obtain ⟨hi, f, hf, hagree⟩ := Access.lookup_eq_some _ _ _ _ _ hfound
    have hequal : (fun j : Fin len => f j) = fieldAt len m base :=
      funext fun j => hagree j j.isLt
    exact absurd (hequal ▸ hfields i hi f hf) hbuffer

/-- Two buffers with the same string get the same answer when both are zero-padded or neither is.
-/
lemma lookup_eq_of_sameString {base' : BitVec w} {m' : BitVec w → UInt8}
  (hsame : SameString (fieldAt len m base) (fieldAt len m' base'))
  (hboth : ZeroPadded (fieldAt len m base) ↔ ZeroPadded (fieldAt len m' base')) :
  (Access.lookup fields base len size m).value =
    (Access.lookup fields base' len size m').value := by
  by_cases hpad : ZeroPadded (fieldAt len m base)
  · have hequal := hpad.eq_of_sameString (hboth.mp hpad) hsame
    exact Access.lookup_congr _ _ _ _ _ fun j hj => congrFun hequal ⟨j, hj⟩
  rw [lookup_of_not_zeroPadded hfields hpad,
    lookup_of_not_zeroPadded hfields fun hpad' => hpad (hboth.mpr hpad')]

/-- A zero-padded buffer finds an entry with its string, if there is one. -/
lemma lookup_of_zeroPadded (hpad : ZeroPadded (fieldAt len m base)) {i : Nat} (hi : i < size)
  {f : Nat → UInt8} (hf : f ∈ fields i)
  (hsame : SameString (fun j : Fin len => f j) (fieldAt len m base)) :
  ∃ k, (Access.lookup fields base len size m).value = some k := by
  cases hfound : (Access.lookup fields base len size m).value with
  | some k => exact ⟨k, rfl⟩
  | none =>
    obtain ⟨j, hj, hne⟩ := (Access.lookup_eq_none _ _ _ _ _).mp hfound i hi f hf
    have hequal := (hfields i hi f hf).eq_of_sameString hpad hsame
    exact absurd (congrFun hequal ⟨j, hj⟩) hne

end
end Aeos.Lib
