/-
# Addresses as text

`net_parse_ip` of `kernel/net.c` scans a string character by character.
-/

import Aeos.Lib.CString
import Aeos.Lib.Decimal

namespace Aeos.Net

open Lib List Option

def pushOctet (out part : Nat) : Nat := (out <<< 8 ||| part) % 2 ^ 32

def parseLoop : List UInt8 → Nat → Nat → Nat → Option (Nat × Nat × Nat)
  | [], out, part, parts => some (out, part, parts)
  | ch :: s, out, part, parts =>
    if ch = 0 then some (out, part, parts)
    else if isDigit ch then
      let part := part * 10 + (ch.toNat - 48)
      if 255 < part then none else parseLoop s out part parts
    else if ch = 46 then parseLoop s (pushOctet out part) 0 (parts + 1)
    else none

def netParseIp (s : List UInt8) : Nat :=
  match parseLoop s 0 0 0 with
  | none => 0
  | some (out, part, parts) =>
    if parts ≠ 3 then 0
    else
      let out := pushOctet out part
      if out = 0 ∨ out = 0xFFFFFFFF then 0 else out

/-! ## The grammar -/

def partsOf (s : List UInt8) : List (List UInt8) := s.splitOn 46

lemma partsOf_nil : partsOf [] = [[]] := rfl

lemma partsOf_dot (s : List UInt8) : partsOf (46 :: s) = [] :: partsOf s := by
  simp [partsOf, List.splitOn, splitOnP_cons_eq_if_modifyHead]

variable {ch : UInt8} {part out parts a b c d : Nat} {t s : List UInt8}

lemma partsOf_cons (hdot : ch ≠ 46) (s : List UInt8) :
  partsOf (ch :: s) = (partsOf s).modifyHead (ch :: ·) := by
  simp [partsOf, List.splitOn, splitOnP_cons_eq_if_modifyHead, hdot]

lemma exists_partsOf (s : List UInt8) : ∃ t ts, partsOf s = t :: ts :=
  exists_cons_of_ne_nil (splitOnP_ne_nil _ s)

def Number (t : List UInt8) (n : Nat) : Prop :=
  (∀ ch ∈ t, isDigit ch = true) ∧ decValue 0 t = n ∧ n ≤ 255

instance (t : List UInt8) (n : Nat) : Decidable (Number t n) :=
  @instDecidableAnd _ _ (List.decidableBAll _ t) inferInstance

def Quad (s : List UInt8) (a b c d : Nat) : Prop :=
  ∃ t₀ t₁ t₂ t₃, partsOf s = [t₀, t₁, t₂, t₃] ∧
    Number t₀ a ∧ Number t₁ b ∧ Number t₂ c ∧ Number t₃ d

def packed (a b c d : Nat) : Nat := a * 2 ^ 24 + b * 2 ^ 16 + c * 2 ^ 8 + d

/-- Neither `0.0.0.0` nor `255.255.255.255`. -/
def Assignable (a b c d : Nat) : Prop :=
  ¬ (a = 0 ∧ b = 0 ∧ c = 0 ∧ d = 0) ∧ ¬ (a = 255 ∧ b = 255 ∧ c = 255 ∧ d = 255)

/-! ## The scan follows the grammar -/

def readPart (part : Nat) (t : List UInt8) : Option Nat :=
  if t.all isDigit = true ∧ decValue part t ≤ 255 then some (decValue part t) else none

def readParts (out part parts : Nat) : List (List UInt8) → Option (Nat × Nat × Nat)
  | [] => none
  | [t] => (readPart part t).map fun v => (out, v, parts)
  | t :: u :: us =>
    match readPart part t with
    | none => none
    | some v => readParts (pushOctet out v) 0 (parts + 1) (u :: us)

lemma readPart_nil (hpart : part ≤ 255) : readPart part [] = some part :=
  if_pos ⟨rfl, hpart⟩

lemma readPart_digit (hdigit : isDigit ch = true) (part : Nat) (t : List UInt8) :
  readPart part (ch :: t) = if 255 < part * 10 + (ch.toNat - 48) then none
    else readPart (part * 10 + (ch.toNat - 48)) t := by
  have hvalue : decValue part (ch :: t) = decValue (part * 10 + (ch.toNat - 48)) t := rfl
  have hdigits : (ch :: t).all isDigit = t.all isDigit := by
    rw [all_cons, hdigit, Bool.true_and]
  unfold readPart
  simp only [hvalue, hdigits]
  by_cases hbig : 255 < part * 10 + (ch.toNat - 48)
  · rw [if_pos hbig, if_neg]
    intro h
    exact absurd (lt_of_lt_of_le hbig (le_decValue _ t)) (not_lt.mpr h.2)
  · rw [if_neg hbig]

lemma readPart_other (hdigit : isDigit ch = false) (part : Nat) (t : List UInt8) :
  readPart part (ch :: t) = none := by
  refine if_neg fun h => ?_
  have hch := List.all_eq_true.mp h.1 ch mem_cons_self
  rw [hdigit] at hch
  cases hch

lemma readParts_none (hnone : readPart part t = none) (ts : List (List UInt8)) :
  readParts out part parts (t :: ts) = none := by
  cases ts with
  | nil => simp [readParts, hnone]
  | cons u us => simp [readParts, hnone]

lemma readParts_congr {part' : Nat} {t' : List UInt8}
  (hpart : readPart part t = readPart part' t') (ts : List (List UInt8)) :
  readParts out part parts (t :: ts) = readParts out part' parts (t' :: ts) := by
  cases ts with
  | nil => simp only [readParts, hpart]
  | cons u us => simp only [readParts, hpart]

lemma parseLoop_eq (hs : ∀ ch ∈ s, ch ≠ 0) (hpart : part ≤ 255) (out parts : Nat) :
  parseLoop s out part parts = readParts out part parts (partsOf s) := by
  induction s generalizing out part parts with
  | nil => simp [parseLoop, partsOf_nil, readParts, readPart_nil hpart]
  | cons ch s ih =>
    have ih := fun {part} (hpart : part ≤ 255) out parts =>
      ih (fun b hb => hs b (mem_cons_of_mem _ hb)) hpart out parts
    obtain ⟨t, ts, hparts⟩ := exists_partsOf s
    rw [parseLoop, if_neg (hs ch mem_cons_self)]
    by_cases hdigit : isDigit ch = true
    · have hdot : ch ≠ 46 := by
        rintro rfl
        exact absurd hdigit (by decide)
      rw [if_pos hdigit, partsOf_cons hdot, hparts, modifyHead_cons]
      have hread := readPart_digit hdigit part t
      dsimp only
      split_ifs at hread ⊢ with hbig
      · rw [readParts_none hread]
      · rw [ih (not_lt.mp hbig), hparts, readParts_congr hread.symm]
    rw [if_neg hdigit]
    by_cases hdot : ch = 46
    · rw [if_pos hdot, hdot, partsOf_dot, ih (Nat.zero_le 255), hparts]
      simp only [readParts, readPart_nil hpart]
    rw [if_neg hdot, partsOf_cons hdot, hparts, modifyHead_cons,
      readParts_none (readPart_other (Bool.not_eq_true _ ▸ hdigit) part t)]

lemma parseLoop_cstr (s : List UInt8) (out part parts : Nat) :
  parseLoop s out part parts = parseLoop (cstr s) out part parts := by
  induction s generalizing out part parts with
  | nil => rfl
  | cons ch s ih =>
    by_cases hzero : ch = 0
    · simp [parseLoop, cstr, hzero]
    have hcons : cstr (ch :: s) = ch :: cstr s := by simp [cstr, hzero]
    simp only [hcons, parseLoop, ih]

/-! ## What the parser accepts -/

lemma readPart_eq_some {n : Nat} : readPart 0 t = some n ↔ Number t n := by
  unfold readPart Number
  rw [← List.all_eq_true]
  split_ifs with h
  · rw [Option.some.injEq]
    constructor
    · rintro rfl
      exact ⟨h.1, rfl, h.2⟩
    · exact fun hn => hn.2.1
  refine iff_of_false (by simp) fun hn => h ⟨hn.1, ?_⟩
  rw [hn.2.1]
  exact hn.2.2

variable {r : Nat × Nat × Nat}

lemma readParts_length {ts : List (List UInt8)}
  (hread : readParts out part parts ts = some r) : r.2.2 + 1 = parts + ts.length := by
  induction ts generalizing out part parts with
  | nil => cases hread
  | cons t ts ih =>
    cases ts with
    | nil =>
      obtain ⟨v, _, rfl⟩ := map_eq_some_iff.mp hread
      rfl
    | cons u us =>
      rw [readParts] at hread
      cases hpart : readPart part t with
      | none =>
        rw [hpart] at hread
        cases hread
      | some v =>
        rw [hpart] at hread
        have hlength := ih hread
        simp only [length_cons] at hlength ⊢
        omega

lemma pushOctet_eq (hout : out < 2 ^ 24) (hpart : part ≤ 255) :
  pushOctet out part = out * 2 ^ 8 + part := by
  have hlow : part < 2 ^ 8 := by omega
  rw [pushOctet, Nat.shiftLeft_eq, or_of_aligned (Nat.mul_mod_left _ _) hlow,
    Nat.mod_eq_of_lt (by omega)]

lemma netParseIp_of_quad (hquad : Quad (cstr s) a b c d) : netParseIp s =
    if packed a b c d = 0 ∨ packed a b c d = 0xFFFFFFFF then 0 else packed a b c d := by
  obtain ⟨t₀, t₁, t₂, t₃, hparts, ha, hb, hc, hd⟩ := hquad
  have hscan : parseLoop s 0 0 0 =
      some (pushOctet (pushOctet (pushOctet 0 a) b) c, d, 3) := by
    rw [parseLoop_cstr, parseLoop_eq (fun ch hch => ne_zero_of_mem_cstr hch) (Nat.zero_le 255),
      hparts]
    simp only [readParts, readPart_eq_some.mpr ha, readPart_eq_some.mpr hb,
      readPart_eq_some.mpr hc, readPart_eq_some.mpr hd, map_some]
  have ha := ha.2.2
  have hb := hb.2.2
  have hc := hc.2.2
  have hd := hd.2.2
  have hpacked : pushOctet (pushOctet (pushOctet (pushOctet 0 a) b) c) d = packed a b c d := by
    rw [pushOctet_eq (by decide) ha, pushOctet_eq (by omega) hb, pushOctet_eq (by omega) hc,
      pushOctet_eq (by omega) hd]
    unfold packed
    omega
  rw [netParseIp, hscan]
  simp only [hpacked, ne_eq, not_true_eq_false, if_false]

lemma exists_of_readParts_cons {u : List UInt8} {us : List (List UInt8)}
  (hread : readParts out part parts (t :: u :: us) = some r) : ∃ v, readPart part t = some v ∧
    readParts (pushOctet out v) 0 (parts + 1) (u :: us) = some r := by
  rw [readParts] at hread
  cases hpart : readPart part t with
  | none =>
    rw [hpart] at hread
    cases hread
  | some v =>
    rw [hpart] at hread
    exact ⟨v, rfl, hread⟩

lemma quad_of_netParseIp (haccepted : netParseIp s ≠ 0) : ∃ a b c d, Quad (cstr s) a b c d := by
  rw [netParseIp, parseLoop_cstr,
    parseLoop_eq (fun ch hch => ne_zero_of_mem_cstr hch) (Nat.zero_le 255)] at haccepted
  cases hread : readParts 0 0 0 (partsOf (cstr s)) with
  | none =>
    rw [hread] at haccepted
    exact absurd rfl haccepted
  | some r =>
    obtain ⟨out, part, parts⟩ := r
    have hthree : parts = 3 := by
      by_contra hne
      rw [hread] at haccepted
      simp only [if_pos hne] at haccepted
      exact haccepted rfl
    have hlength := readParts_length hread
    rw [hthree, Nat.zero_add] at hlength
    obtain ⟨t₀, t₁, t₂, t₃, hparts⟩ : ∃ t₀ t₁ t₂ t₃, partsOf (cstr s) = [t₀, t₁, t₂, t₃] := by
      match partsOf (cstr s), hlength with
      | [t₀, t₁, t₂, t₃], _ => exact ⟨t₀, t₁, t₂, t₃, rfl⟩
    rw [hparts] at hread
    obtain ⟨a, ha, hread⟩ := exists_of_readParts_cons hread
    obtain ⟨b, hb, hread⟩ := exists_of_readParts_cons hread
    obtain ⟨c, hc, hread⟩ := exists_of_readParts_cons hread
    obtain ⟨d, hd, _⟩ := map_eq_some_iff.mp hread
    exact ⟨a, b, c, d, t₀, t₁, t₂, t₃, hparts, readPart_eq_some.mp ha, readPart_eq_some.mp hb,
      readPart_eq_some.mp hc, readPart_eq_some.mp hd⟩

lemma Quad.le (h : Quad s a b c d) : a ≤ 255 ∧ b ≤ 255 ∧ c ≤ 255 ∧ d ≤ 255 := by
  obtain ⟨_, _, _, _, _, ha, hb, hc, hd⟩ := h
  exact ⟨ha.2.2, hb.2.2, hc.2.2, hd.2.2⟩

lemma assignable_iff (ha : a ≤ 255) (hb : b ≤ 255) (hc : c ≤ 255) (hd : d ≤ 255) :
  Assignable a b c d ↔ ¬ (packed a b c d = 0 ∨ packed a b c d = 0xFFFFFFFF) := by
  unfold Assignable packed
  omega

lemma netParseIp_ne_zero_iff :
  netParseIp s ≠ 0 ↔ ∃ a b c d, Quad (cstr s) a b c d ∧ Assignable a b c d := by
  constructor
  · intro haccepted
    obtain ⟨a, b, c, d, hquad⟩ := quad_of_netParseIp haccepted
    obtain ⟨ha, hb, hc, hd⟩ := hquad.le
    refine ⟨a, b, c, d, hquad, ?_⟩
    rw [assignable_iff ha hb hc hd]
    intro hreserved
    rw [netParseIp_of_quad hquad, if_pos hreserved] at haccepted
    exact haccepted rfl
  rintro ⟨a, b, c, d, hquad, hassignable⟩
  obtain ⟨ha, hb, hc, hd⟩ := hquad.le
  rw [assignable_iff ha hb hc hd] at hassignable
  rw [netParseIp_of_quad hquad, if_neg hassignable]
  exact fun hzero => hassignable (.inl hzero)

lemma netParseIp_eq_packed (hquad : Quad (cstr s) a b c d) (haccepted : netParseIp s ≠ 0) :
  netParseIp s = packed a b c d := by
  rw [netParseIp_of_quad hquad] at haccepted ⊢
  split_ifs at haccepted ⊢ with hreserved
  · exact absurd rfl haccepted
  · rfl

def HasEmptyPart (s : List UInt8) : Prop := [] ∈ partsOf s

instance (s : List UInt8) : Decidable (HasEmptyPart s) := inferInstanceAs (Decidable (_ ∈ _))

/-- The parser accepts four non-empty numbers that are not all 0 and not all 255, and packs what
it accepts. -/
def ParsesExactly (s : List UInt8) : Prop :=
  (netParseIp s ≠ 0 ↔
      ∃ a b c d, Quad (cstr s) a b c d ∧ ¬ HasEmptyPart (cstr s) ∧ Assignable a b c d) ∧
    ∀ a b c d, Quad (cstr s) a b c d → netParseIp s ≠ 0 → netParseIp s = packed a b c d

/-- A string is treated as it should be exactly when it is not a quad with an empty part,
read as zero, that comes to an assignable address. -/
theorem net_parse_ip_exact_iff (s : List UInt8) : ParsesExactly s ↔
    ¬ (HasEmptyPart (cstr s) ∧ ∃ a b c d, Quad (cstr s) a b c d ∧ Assignable a b c d) := by
  unfold ParsesExactly
  rw [netParseIp_ne_zero_iff]
  constructor
  · rintro ⟨hiff, _⟩ ⟨hempty, hquad⟩
    obtain ⟨_, _, _, _, _, hfull, _⟩ := hiff.mp hquad
    exact hfull hempty
  intro hnone
  refine ⟨⟨?_, ?_⟩, ?_⟩
  · rintro ⟨a, b, c, d, hquad, hassignable⟩
    refine ⟨a, b, c, d, hquad, fun hempty => ?_, hassignable⟩
    exact hnone ⟨hempty, a, b, c, d, hquad, hassignable⟩
  · rintro ⟨a, b, c, d, hquad, _, hassignable⟩
    exact ⟨a, b, c, d, hquad, hassignable⟩
  intro a b c d hquad haccepted
  exact netParseIp_eq_packed hquad (netParseIp_ne_zero_iff.mpr haccepted)

def gatewayText : List UInt8 := [49, 48, 46, 48, 46, 50, 46, 50]

theorem net_parse_ip_exact_gateway : ParsesExactly gatewayText :=
  (net_parse_ip_exact_iff gatewayText).mpr fun h => absurd h.1 (by decide)

/-- `1..2.3` is accepted as `1.0.2.3`. -/
theorem empty_part_accepted : HasEmptyPart (cstr [49, 46, 46, 50, 46, 51]) ∧
    netParseIp [49, 46, 46, 50, 46, 51] = packed 1 0 2 3 := by
  decide

end Aeos.Net
