/-
# What the device tree walker reads

`dtb_memory` once more, with every byte it reads logged. Its value is that of
`Aeos.Dtb.dtbMemory`; what is new is where it reads.
-/

import Aeos.Lib.Reads
import Aeos.Dtb.Decode

namespace Aeos.Dtb.Reading

open Lib Lib.Reads

abbrev Prog (α : Type) : Type := Reads Nat UInt8 α

/-! ## Helpers of the loader -/

def rd32 (p : Nat) : Prog Nat := do
  let b₀ ← read p
  let b₁ ← read (p + 1)
  let b₂ ← read (p + 2)
  let b₃ ← read (p + 3)
  pure (byteSwap (b₀.toNat + 2 ^ 8 * b₁.toNat + 2 ^ 16 * b₂.toNat + 2 ^ 24 * b₃.toNat))

def lstrlen (s : Nat) : Nat → Prog Nat
  | 0 => pure 0
  | room + 1 => do
      let c ← read s
      if c = 0 then pure 0
      else do
        let n ← lstrlen (s + 1) room
        pure (n + 1)

def lstrcmp (a : Nat) : List UInt8 → Prog Int
  | [] => do
      let x ← read a
      pure x.toNat
  | c :: literal => do
      let x ← read a
      if x ≠ 0 ∧ x = c then lstrcmp (a + 1) literal else pure (x.toNat - c.toNat)

def lstrcmpN (a : Nat) : List UInt8 → Nat → Prog Int
  | _, 0 => pure 0
  | [], _ + 1 => do
      let x ← read a
      pure x.toNat
  | c :: literal, n + 1 => do
      let x ← read a
      if x ≠ 0 ∧ x = c then lstrcmpN (a + 1) literal n else pure (x.toNat - c.toNat)

def named (a : Nat) (literal : List UInt8) : Prog Bool := do
  let order ← lstrcmp a literal
  pure (order == 0)

def starts (a : Nat) (literal : List UInt8) : Prog Bool := do
  let order ← lstrcmpN a literal literal.length
  pure (order == 0)

def fdtString (base last off : Nat) : Prog (Option Nat) :=
  if base + off ≥ last then pure none
  else do
    let n ← lstrlen (base + off) (last - (base + off))
    pure (if n = last - (base + off) then none else some (base + off))

def readCells (val : Nat) : Nat → Prog Nat
  | 0 => pure 0
  | cells + 1 => do
      let acc ← readCells val cells
      let word ← rd32 (val + 4 * cells)
      pure ((acc <<< 32) % 2 ^ 64 ||| word)

section
variable (b : Nat → UInt8)

@[simp]
lemma value_rd32 (p : Nat) : (rd32 p).value b = Dtb.rd32 b p := rfl

@[simp]
lemma value_lstrlen (s room : Nat) : (lstrlen s room).value b = Dtb.lstrlen b s room := by
  induction room generalizing s with
  | zero => rfl
  | succ room ih =>
    rw [lstrlen, value_bind, value_read, value_ite, value_bind, ih, Dtb.lstrlen]
    rfl

@[simp]
lemma value_lstrcmp (a : Nat) (literal : List UInt8) :
  (lstrcmp a literal).value b = Dtb.lstrcmp b a literal := by
  induction literal generalizing a with
  | nil => rfl
  | cons c literal ih =>
    rw [lstrcmp, value_bind, value_read, value_ite, ih, Dtb.lstrcmp]
    rfl

@[simp]
lemma value_lstrcmpN (a : Nat) (literal : List UInt8) (n : Nat) :
  (lstrcmpN a literal n).value b = Dtb.lstrcmpN b a literal n := by
  induction n generalizing a literal with
  | zero =>
    rfl
  | succ n ih =>
    cases literal with
    | nil => rfl
    | cons c literal =>
      rw [lstrcmpN, value_bind, value_read, value_ite, ih, Dtb.lstrcmpN]
      rfl

@[simp]
lemma value_named (a : Nat) (literal : List UInt8) :
  (named a literal).value b = (Dtb.lstrcmp b a literal == 0) := by
  rw [named, value_bind, value_lstrcmp, value_pure]

@[simp]
lemma value_starts (a : Nat) (literal : List UInt8) :
  (starts a literal).value b = (Dtb.lstrcmpN b a literal literal.length == 0) := by
  rw [starts, value_bind, value_lstrcmpN, value_pure]

@[simp]
lemma value_fdtString (base last off : Nat) :
  (fdtString base last off).value b = Dtb.fdtString b base last off := by
  rw [fdtString, Dtb.fdtString, value_ite]
  by_cases hpast : base + off ≥ last
  · simp [hpast]
  · simp [hpast]

@[simp]
lemma value_readCells (val cells : Nat) :
  (readCells val cells).value b = Dtb.readCells b val cells := by
  induction cells with
  | zero => rfl
  | succ cells ih =>
    rw [readCells, value_bind, value_bind, value_rd32, ih, value_pure, Dtb.readCells,
      Dtb.readCells, List.range_succ, List.foldl_append]
    rfl

end

section
variable {P : Nat → Prop} {b : Nat → UInt8}

lemma inside_rd32 (p : Nat) : Inside P (rd32 p) b ↔ P p ∧ P (p + 1) ∧ P (p + 2) ∧ P (p + 3) := by
  simp [rd32]

lemma inside_lstrlen (s room : Nat) : Inside P (lstrlen s room) b ↔
    ∀ j < room, (∀ i < j, b (s + i) ≠ 0) → P (s + j) := by
  induction room generalizing s with
  | zero => exact iff_of_true (inside_pure 0) fun j hj => absurd hj (Nat.not_lt_zero j)
  | succ room ih =>
    rw [lstrlen, inside_bind, inside_read, value_read, inside_ite, inside_bind, ih]
    constructor
    · rintro ⟨hfirst, -, hrest⟩ j hj hbefore
      cases j with
      | zero => exact hfirst
      | succ j =>
        have hnext := (hrest (hbefore 0 (Nat.succ_pos j))).1 j (Nat.lt_of_succ_lt_succ hj)
        rw [Nat.add_assoc, Nat.add_comm 1 j] at hnext
        apply hnext
        intro i hi
        rw [Nat.add_assoc, Nat.add_comm 1 i]
        exact hbefore (i + 1) (Nat.succ_lt_succ hi)
    intro hall
    refine ⟨hall 0 (Nat.succ_pos room) fun i hi => absurd hi (Nat.not_lt_zero i),
      fun _ => inside_pure 0, fun hnonzero => ⟨?_, inside_pure _⟩⟩
    intro j hj hbefore
    have hnext := hall (j + 1) (Nat.succ_lt_succ hj)
    rw [Nat.add_assoc, Nat.add_comm 1 j]
    apply hnext
    intro i hi
    cases i with
    | zero => exact hnonzero
    | succ i =>
      have hbyte := hbefore i (Nat.lt_of_succ_lt_succ hi)
      rwa [Nat.add_assoc, Nat.add_comm 1 i] at hbyte

lemma inside_lstrlen_below {s last size : Nat} (hlast : last ≤ size) :
  Inside (· < size) (lstrlen s (last - s)) b := by
  rw [inside_lstrlen]
  intro j hj _
  omega

lemma inside_lstrcmp {a z : Nat} (literal : List UInt8) (hzero : b (a + z) = 0)
  (hall : ∀ j ≤ z, P (a + j)) : Inside P (lstrcmp a literal) b := by
  have hfirst : P a := hall 0 (Nat.zero_le z)
  induction literal generalizing a z with
  | nil =>
    rw [lstrcmp, inside_bind, inside_read]
    exact ⟨hfirst, inside_pure _⟩
  | cons c literal ih =>
    rw [lstrcmp, inside_bind, inside_read, value_read, inside_ite]
    refine ⟨hfirst, fun hgo => ?_, fun _ => inside_pure _⟩
    cases z with
    | zero => exact absurd hzero hgo.1
    | succ z =>
      have hnext : ∀ j ≤ z, P (a + 1 + j) := by
        intro j hj
        rw [Nat.add_assoc, Nat.add_comm 1 j]
        exact hall (j + 1) (Nat.succ_le_succ hj)
      apply ih (z := z) _ hnext (hnext 0 (Nat.zero_le z))
      rw [Nat.add_assoc, Nat.add_comm 1 z]
      exact hzero

lemma inside_named {a z : Nat} (literal : List UInt8) (hzero : b (a + z) = 0)
  (hall : ∀ j ≤ z, P (a + j)) : Inside P (named a literal) b := by
  rw [named, inside_bind]
  exact ⟨inside_lstrcmp literal hzero hall, inside_pure _⟩

lemma inside_lstrcmpN {a n : Nat} (literal : List UInt8) (hall : ∀ j < n, P (a + j)) :
  Inside P (lstrcmpN a literal n) b := by
  induction n generalizing a literal with
  | zero =>
    exact inside_pure 0
  | succ n ih =>
    have hfirst : P a := hall 0 (Nat.succ_pos n)
    cases literal with
    | nil =>
      rw [lstrcmpN, inside_bind, inside_read]
      exact ⟨hfirst, inside_pure _⟩
    | cons c literal =>
      rw [lstrcmpN, inside_bind, inside_read, value_read, inside_ite]
      refine ⟨hfirst, fun _ => ih literal fun j hj => ?_, fun _ => inside_pure _⟩
      rw [Nat.add_assoc, Nat.add_comm 1 j]
      exact hall (j + 1) (Nat.succ_lt_succ hj)

lemma inside_starts {a : Nat} {literal : List UInt8}
  (hall : ∀ j < literal.length, P (a + j)) : Inside P (starts a literal) b := by
  rw [starts, inside_bind]
  exact ⟨inside_lstrcmpN literal hall, inside_pure _⟩

lemma inside_fdtString (base last off : Nat) : Inside P (fdtString base last off) b ↔
    ∀ j < last - (base + off), (∀ i < j, b (base + off + i) ≠ 0) → P (base + off + j) := by
  rw [fdtString, inside_ite, inside_bind, inside_lstrlen]
  constructor
  · rintro ⟨-, hread⟩ j hj
    exact (hread (by omega)).1 j hj
  intro hall
  exact ⟨fun _ => inside_pure none, fun _ => ⟨hall, inside_pure _⟩⟩

lemma inside_readCells (val cells : Nat) :
  Inside P (readCells val cells) b ↔ ∀ j < 4 * cells, P (val + j) := by
  induction cells with
  | zero => exact iff_of_true (inside_pure 0) fun j hj => absurd hj (Nat.not_lt_zero j)
  | succ cells ih =>
    rw [readCells, inside_bind, inside_bind, ih, inside_rd32]
    constructor
    · rintro ⟨hfew, ⟨h₀, h₁, h₂, h₃⟩, -⟩ j hj
      rcases Nat.lt_or_ge j (4 * cells) with hlow | hlow
      · exact hfew j hlow
      obtain rfl | rfl | rfl | rfl : j = 4 * cells ∨ j = 4 * cells + 1 ∨ j = 4 * cells + 2 ∨
          j = 4 * cells + 3 := by omega
      · exact h₀
      · exact h₁
      · exact h₂
      · exact h₃
    intro hall
    refine ⟨fun j hj => hall j (by omega), ⟨?_, ?_, ?_, ?_⟩, inside_pure _⟩
    · exact hall (4 * cells) (by omega)
    · exact hall (4 * cells + 1) (by omega)
    · exact hall (4 * cells + 2) (by omega)
    · exact hall (4 * cells + 3) (by omega)

end

section
variable {b : Nat → UInt8}

lemma lstrlen_spec (s room : Nat) :
  Dtb.lstrlen b s room ≤ room ∧ (∀ i < Dtb.lstrlen b s room, b (s + i) ≠ 0) ∧
    (Dtb.lstrlen b s room < room → b (s + Dtb.lstrlen b s room) = 0) := by
  induction room generalizing s with
  | zero =>
    refine ⟨Nat.le_refl 0, ?_, fun h => absurd h (Nat.not_lt_zero _)⟩
    intro i hi
    exact absurd hi (Nat.not_lt_zero i)
  | succ room ih =>
    rw [Dtb.lstrlen]
    by_cases hzero : b s = 0
    · rw [if_pos hzero]
      exact ⟨Nat.zero_le _, fun i hi => absurd hi (Nat.not_lt_zero i), fun _ => hzero⟩
    rw [if_neg hzero]
    obtain ⟨hle, hbefore, hend⟩ := ih (s + 1)
    refine ⟨Nat.succ_le_succ hle, ?_, ?_⟩
    · intro i hi
      cases i with
      | zero => exact hzero
      | succ i =>
        have hbyte := hbefore i (Nat.lt_of_succ_lt_succ hi)
        rwa [Nat.add_assoc, Nat.add_comm 1 i] at hbyte
    intro hlt
    have hbyte := hend (Nat.lt_of_succ_lt_succ hlt)
    rwa [Nat.add_assoc, Nat.add_comm 1 _] at hbyte

lemma fdtString_some {base last off pname : Nat} (h : Dtb.fdtString b base last off = some pname) :
  pname = base + off ∧ ∃ z < last - (base + off), b (pname + z) = 0 ∧
    ∀ i < z, b (pname + i) ≠ 0 := by
  unfold Dtb.fdtString at h
  split at h
  · cases h
  next hchecks =>
    obtain ⟨-, hshort⟩ := not_or.mp hchecks
    obtain rfl : base + off = pname := Option.some.inj h
    obtain ⟨hle, hbefore, hend⟩ := lstrlen_spec (b := b) (base + off) (last - (base + off))
    have hlt := Nat.lt_of_le_of_ne hle hshort
    exact ⟨rfl, _, hlt, hend hlt, hbefore⟩

lemma inside_named_of_found {P : Nat → Prop} {base last off pname : Nat}
  (hfound : Dtb.fdtString b base last off = some pname)
  (hinside : Inside P (fdtString base last off) b) (literal : List UInt8) :
  Inside P (named pname literal) b := by
  obtain ⟨rfl, z, hz, hzero, hbefore⟩ := fdtString_some hfound
  rw [inside_fdtString] at hinside
  refine inside_named literal hzero fun j hj => ?_
  apply hinside j (by omega)
  intro i hi
  exact hbefore i (by omega)

end

/-! ## The walker -/

def isMemory (name nlen : Nat) : Prog Bool :=
  both (pure (decide (6 ≤ nlen)))
    (both (starts name memoryName)
      (either (pure (nlen == 6)) (do
        let c ← read (name + 6)
        pure (c == 64))))

def beginNode (k : Blocks) (w : Walk) : Prog (Walk ⊕ Option (Nat × Nat)) := do
  let nlen ← lstrlen w.sp (k.send - w.sp)
  let sp := w.sp + u32 (nlen + 1 + 3) / 4 * 4
  if sp > k.send then pure (.inr none)
  else do
    let memNode ← both (pure (w.depth == 1)) (isMemory w.sp nlen)
    pure (.inl { w with sp := sp, depth := w.depth + 1, memNode := memNode })

def readReg (val len addrCells sizeCells : Nat) : Prog (Walk ⊕ Option (Nat × Nat)) :=
  if addrCells < 1 ∨ addrCells > 2 ∨ sizeCells < 1 ∨ sizeCells > 2 ∨
      len ≠ u32 (u32 (addrCells + sizeCells) * 4) then pure (.inr none)
  else do
    let base ← readCells val addrCells
    let size ← readCells (val + 4 * addrCells) sizeCells
    pure (.inr (some (base, size)))

def rootProperty (w : Walk) (pname val : Nat) : Prog (Walk ⊕ Option (Nat × Nat)) := do
  let isAddr ← named pname addressCellsName
  if isAddr then do
    let cells ← rd32 val
    pure (.inl { w with addrCells := cells })
  else do
    let isSize ← named pname sizeCellsName
    if isSize then do
      let cells ← rd32 val
      pure (.inl { w with sizeCells := cells })
    else pure (.inl w)

def namedProperty (w : Walk) (pname val len : Nat) : Prog (Walk ⊕ Option (Nat × Nat)) := do
  let isReg ← both (pure w.memNode) (named pname regName)
  if isReg then readReg val len w.addrCells w.sizeCells
  else if !w.memNode && w.depth == 1 && len == 4 then rootProperty w pname val
  else pure (.inl w)

def withName (w : Walk) (val len : Nat) : Option Nat → Prog (Walk ⊕ Option (Nat × Nat))
  | none => pure (.inl w)
  | some pname => namedProperty w pname val len

def property (k : Blocks) (w : Walk) : Prog (Walk ⊕ Option (Nat × Nat)) :=
  if w.sp + 8 > k.send then pure (.inr none)
  else do
    let len ← rd32 w.sp
    let nameoff ← rd32 (w.sp + 4)
    let val := w.sp + 8
    let sp := val + u32 (len + 3) / 4 * 4
    if val + len > k.send ∨ sp > k.send then pure (.inr none)
    else do
      let pname ← fdtString k.sb k.sbend nameoff
      withName { w with sp := sp } val len pname

def token (k : Blocks) (tok : Nat) (w : Walk) : Prog (Walk ⊕ Option (Nat × Nat)) :=
  if tok = fdtEnd then pure (.inr none)
  else if tok = fdtNop then pure (.inl w)
  else if tok = fdtBeginNode then beginNode k w
  else if tok = fdtEndNode then pure (.inl { w with depth := w.depth - 1, memNode := false })
  else if tok = fdtProp then property k w
  else pure (.inr none)

def turn (k : Blocks) (w : Walk) : Prog (Walk ⊕ Option (Nat × Nat)) :=
  if w.sp + 4 ≤ k.send then do
    let tok ← rd32 w.sp
    token k tok { w with sp := w.sp + 4 }
  else pure (.inr none)

/-- The checks of `dtb_memory` and its loop, with the first fields of the header loaded. Every
turn takes four bytes or more, which bounds their number. -/
def searchMemory (size structOff stringsOff structSize : Nat) :
  Prog (Option (Option (Nat × Nat))) :=
  if structSize = 0 ∨ structOff > size ∨ stringsOff > size ∨ structSize > size - structOff then
    pure (some none)
  else do
    let stringsSize ← rd32 32
    if stringsSize > size - stringsOff then pure (some none)
    else do
      -- The field is loaded once more for `sbend`.
      let stringsSize ← rd32 32
      loop (turn ⟨structOff + structSize, stringsOff, stringsOff + stringsSize⟩) (structSize + 1)
        ⟨structOff, 0, false, 2, 1⟩

def dtbMemory (size : Nat) : Prog (Option (Option (Nat × Nat))) := do
  let structOff ← rd32 8
  let stringsOff ← rd32 12
  let structSize ← rd32 36
  searchMemory size structOff stringsOff structSize

/-! ## The walker without its log -/

section
variable (b : Nat → UInt8)

def outcome : Turn → Walk ⊕ Option (Nat × Nat)
  | .next w => .inl w
  | .done result => .inr result

lemma value_isMemory (name nlen : Nat) : (isMemory name nlen).value b =
    (decide (6 ≤ nlen) && Dtb.lstrcmpN b name memoryName 6 == 0 &&
      (nlen == 6 || b (name + 6) == 64)) := by
  rw [isMemory, value_both, value_both, value_either, value_starts, Bool.and_assoc]
  rfl

lemma value_beginNode (k : Blocks) (w : Walk) :
  (beginNode k w).value b = outcome (Dtb.beginNode b k w) := by
  simp only [beginNode, value_bind, value_lstrlen, value_ite, value_both, value_pure,
    value_isMemory, Dtb.beginNode, Bool.and_assoc]
  split <;> rfl

lemma value_readReg (val len addrCells sizeCells : Nat) :
  (readReg val len addrCells sizeCells).value b =
    .inr (Dtb.readReg b val len addrCells sizeCells) := by
  simp only [readReg, value_ite, value_bind, value_readCells, value_pure, Dtb.readReg]
  split <;> rfl

lemma value_namedProperty (w : Walk) (pname val len : Nat) :
  (namedProperty w pname val len).value b = outcome (Dtb.namedProperty b w pname val len) := by
  simp only [namedProperty, rootProperty, value_bind, value_both, value_pure, value_named,
    value_ite, value_readReg, value_rd32, Dtb.namedProperty]
  repeat' split
  all_goals rfl

lemma value_property (k : Blocks) (w : Walk) :
  (property k w).value b = outcome (Dtb.property b k w) := by
  rw [property, Dtb.property]
  by_cases hroom : w.sp + 8 > k.send
  · rw [if_pos hroom, if_pos hroom]
    rfl
  rw [if_neg hroom, if_neg hroom, value_bind, value_bind, value_rd32, value_rd32]
  dsimp only
  split
  · rfl
  rw [value_bind, value_fdtString]
  cases Dtb.fdtString b k.sb k.sbend (Dtb.rd32 b (w.sp + 4)) with
  | none => rfl
  | some pname => exact value_namedProperty b _ pname _ _

variable {k : Blocks}

lemma value_turn {w : Walk} (hroom : w.sp + 4 ≤ k.send) :
  (turn k w).value b = outcome (Dtb.turn b k w) := by
  rw [turn, if_pos hroom, value_bind, value_rd32]
  simp only [token, value_ite, value_pure, value_beginNode, value_property, Dtb.turn]
  repeat' split
  all_goals rfl

lemma next_measure (w w' : Walk) (hnext : Next (turn k) b w w') :
  k.send - w'.sp < k.send - w.sp := by
  unfold Next at hnext
  by_cases hroom : w.sp + 4 ≤ k.send
  · rw [value_turn b hroom] at hnext
    cases hturn : Dtb.turn b k w with
    | done result =>
      rw [hturn] at hnext
      cases hnext
    | next w₁ =>
      rw [hturn] at hnext
      obtain rfl : w₁ = w' := Sum.inl.inj hnext
      have hadvances := turn_advances hturn
      omega
  rw [turn, if_neg hroom] at hnext
  cases hnext

lemma value_loop {fuel : Nat} {w : Walk} (hfuel : k.send - w.sp ≤ fuel) :
  (loop (turn k) (fuel + 1) w).value b = some (walk b k fuel w) := by
  induction fuel generalizing w with
  | zero =>
    have hend : ¬ w.sp + 4 ≤ k.send := by omega
    rw [loop, value_bind, turn, if_neg hend]
    rfl
  | succ fuel ih =>
    rw [loop, value_bind, walk]
    by_cases hroom : w.sp + 4 ≤ k.send
    · rw [value_turn b hroom, if_pos hroom]
      cases hturn : Dtb.turn b k w with
      | done result => rfl
      | next w' =>
        have hadvances := turn_advances hturn
        exact ih (by omega)
    rw [turn, if_neg hroom, if_neg hroom]
    rfl

lemma value_searchMemory (size structOff stringsOff structSize : Nat) :
  (searchMemory size structOff stringsOff structSize).value b =
    some (if structSize = 0 ∨ structOff > size ∨ stringsOff > size ∨
        structSize > size - structOff ∨ Dtb.rd32 b 32 > size - stringsOff then none
      else walk b ⟨structOff + structSize, stringsOff, stringsOff + Dtb.rd32 b 32⟩ structSize
        ⟨structOff, 0, false, 2, 1⟩) := by
  rw [searchMemory]
  by_cases hstruct : structSize = 0 ∨ structOff > size ∨ stringsOff > size ∨
      structSize > size - structOff
  · rw [if_pos hstruct, if_pos (by tauto)]
    rfl
  rw [if_neg hstruct, value_bind, value_rd32]
  by_cases hroom : Dtb.rd32 b 32 > size - stringsOff
  · rw [if_pos hroom, if_pos (by tauto)]
    rfl
  rw [if_neg hroom, if_neg (by tauto), value_bind, value_rd32]
  exact value_loop b (by dsimp only; omega)

lemma value_dtbMemory (size : Nat) : (dtbMemory size).value b = some (Dtb.dtbMemory b size) := by
  rw [dtbMemory, value_bind, value_bind, value_bind, value_searchMemory]
  exact congrArg some (if_congr Iff.rfl rfl rfl)

end

/-! ## Nothing outside the blob is read -/

section
variable {b : Nat → UInt8} {size : Nat} {k : Blocks}

lemma inside_isMemory {name nlen : Nat} (hend : name + nlen ≤ size) :
  Inside (· < size) (isMemory name nlen) b := by
  rw [isMemory, inside_both]
  refine ⟨inside_pure _, fun hlong => ?_⟩
  have hnlen : 6 ≤ nlen := of_decide_eq_true hlong
  have hlength : memoryName.length = 6 := rfl
  rw [inside_both]
  refine ⟨inside_starts fun j hj => by omega, fun _ => ?_⟩
  rw [inside_either]
  refine ⟨inside_pure _, fun hmore => ?_⟩
  have hne : nlen ≠ 6 := by simpa using hmore
  rw [inside_bind, inside_read]
  exact ⟨by omega, inside_pure _⟩

lemma inside_beginNode (hsend : k.send ≤ size) (w : Walk) :
  Inside (· < size) (beginNode k w) b := by
  obtain ⟨hle, -, -⟩ := lstrlen_spec (b := b) w.sp (k.send - w.sp)
  rw [beginNode, inside_bind, value_lstrlen]
  refine ⟨inside_lstrlen_below hsend, ?_⟩
  rw [inside_ite]
  refine ⟨fun _ => inside_pure _, fun hroom => ?_⟩
  rw [inside_bind, inside_both]
  refine ⟨⟨inside_pure _, fun _ => inside_isMemory ?_⟩, inside_pure _⟩
  omega

lemma inside_readReg {val len addrCells sizeCells : Nat} (hend : val + len ≤ size) :
  Inside (· < size) (readReg val len addrCells sizeCells) b := by
  rw [readReg, inside_ite]
  refine ⟨fun _ => inside_pure _, fun hcells => ?_⟩
  have hlen : len = (addrCells + sizeCells) * 4 := by
    simp only [u32] at hcells
    omega
  rw [inside_bind, inside_bind, inside_readCells, inside_readCells]
  refine ⟨fun j hj => by omega, fun j hj => by omega, inside_pure _⟩

lemma inside_rd32_below {p : Nat} (hp : p + 4 ≤ size) : Inside (· < size) (rd32 p) b := by
  rw [inside_rd32]
  exact ⟨by omega, by omega, by omega, by omega⟩

lemma inside_namedProperty {base last off pname val len : Nat} (w : Walk)
  (hfound : Dtb.fdtString b base last off = some pname)
  (hstring : Inside (· < size) (fdtString base last off) b) (hend : val + len ≤ size) :
  Inside (· < size) (namedProperty w pname val len) b := by
  have hnamed := fun literal => inside_named_of_found hfound hstring literal
  rw [namedProperty, inside_bind, inside_both]
  refine ⟨⟨inside_pure _, fun _ => hnamed regName⟩, ?_⟩
  rw [inside_ite]
  refine ⟨fun _ => inside_readReg hend, fun _ => ?_⟩
  rw [inside_ite]
  refine ⟨fun hroot => ?_, fun _ => inside_pure _⟩
  have hlen : len = 4 := by
    simp only [Bool.and_eq_true, beq_iff_eq] at hroot
    exact hroot.2
  have hcells : Inside (· < size) (rd32 val) b := inside_rd32_below (by omega)
  rw [rootProperty, inside_bind, inside_ite]
  refine ⟨hnamed addressCellsName, fun _ => ?_, fun _ => ?_⟩
  · rw [inside_bind]
    exact ⟨hcells, inside_pure _⟩
  rw [inside_bind, inside_ite]
  refine ⟨hnamed sizeCellsName, fun _ => ?_, fun _ => inside_pure _⟩
  rw [inside_bind]
  exact ⟨hcells, inside_pure _⟩

lemma inside_property (hsend : k.send ≤ size) (hsbend : k.sbend ≤ size) (w : Walk) :
  Inside (· < size) (property k w) b := by
  rw [property, inside_ite]
  refine ⟨fun _ => inside_pure _, fun hroom => ?_⟩
  rw [inside_bind, inside_bind]
  refine ⟨inside_rd32_below (by omega), inside_rd32_below (by omega), ?_⟩
  rw [inside_ite]
  refine ⟨fun _ => inside_pure _, fun hvalue => ?_⟩
  have hstring : ∀ off, Inside (· < size) (fdtString k.sb k.sbend off) b := by
    intro off
    rw [inside_fdtString]
    intro j hj _
    omega
  rw [inside_bind, value_fdtString]
  refine ⟨hstring _, ?_⟩
  cases hfound : Dtb.fdtString b k.sb k.sbend ((rd32 (w.sp + 4)).value b) with
  | none => exact inside_pure _
  | some pname => exact inside_namedProperty _ hfound (hstring _) (by omega)

lemma inside_turn (hsend : k.send ≤ size) (hsbend : k.sbend ≤ size) (w : Walk) :
  Inside (· < size) (turn k w) b := by
  rw [turn, inside_ite]
  refine ⟨fun hroom => ?_, fun _ => inside_pure _⟩
  rw [inside_bind]
  refine ⟨inside_rd32_below (by omega), ?_⟩
  unfold token
  split
  · exact inside_pure _
  split
  · exact inside_pure _
  split
  · exact inside_beginNode hsend _
  split
  · exact inside_pure _
  split
  · exact inside_property hsend hsbend _
  · exact inside_pure _

/-- `dtb_memory` ends, with the result of the walk, and reads nothing outside the blob,
whatever the blob says of itself. -/
theorem dtb_memory_reads_inside (b : Nat → UInt8) (size : Nat) (hsize : 40 ≤ size) :
  (dtbMemory size).value b = some (Dtb.dtbMemory b size) ∧
    ∀ off ∈ (dtbMemory size).touched b, off < size := by
  refine ⟨value_dtbMemory b size, ?_⟩
  have hheader : ∀ p, p + 4 ≤ 40 → Inside (· < size) (rd32 p) b := fun p hp =>
    inside_rd32_below (by omega)
  have hsearch : ∀ structOff stringsOff structSize,
      Inside (· < size) (searchMemory size structOff stringsOff structSize) b := by
    intro structOff stringsOff structSize
    rw [searchMemory, inside_ite]
    refine ⟨fun _ => inside_pure _, fun hstruct => ?_⟩
    rw [inside_bind, inside_ite]
    refine ⟨hheader 32 (by decide), fun _ => inside_pure _, fun hstrings => ?_⟩
    rw [inside_bind]
    refine ⟨hheader 32 (by decide), ?_⟩
    rw [inside_loop (next_measure b) (by dsimp only; omega)]
    intro w _
    exact inside_turn (by dsimp only; omega) (by dsimp only; omega) w
  show Inside (· < size) (dtbMemory size) b
  rw [dtbMemory, inside_bind, inside_bind, inside_bind]
  exact ⟨hheader 8 (by decide), hheader 12 (by decide), hheader 36 (by decide), hsearch _ _ _⟩

theorem dtb_memory_reads_inside_bare :
  40 ≤ 104 ∧ (dtbMemory 104).value bareBlob = some (Dtb.dtbMemory bareBlob 104) ∧
    ∀ off ∈ (dtbMemory 104).touched bareBlob, off < 104 :=
  ⟨by decide, dtb_memory_reads_inside bareBlob 104 (by decide)⟩

end
end Aeos.Dtb.Reading
