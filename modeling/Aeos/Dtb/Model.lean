/-
# The device tree walker

`dtb_memory` of `boot/aarch64/loader.c`, over the bytes of the blob. Pointers into the
blob are offsets from its start. The loop is cut into one turn, which either goes on or
returns, and its repetition.
-/

import Aeos.Dtb.Scan
import Aeos.Mem.Pmm

namespace Aeos.Dtb

open Lib

def fdtBeginNode : Nat := 0x1
def fdtEndNode : Nat := 0x2
def fdtProp : Nat := 0x3
def fdtNop : Nat := 0x4
def fdtEnd : Nat := 0x9

section
variable (b : Nat → UInt8)

def rd32 (p : Nat) : Nat := byteSwap (leWord b p)

def lstrlen (s : Nat) : Nat → Nat
  | 0 => 0
  | room + 1 => if b s = 0 then 0 else lstrlen (s + 1) room + 1

def lstrcmp (a : Nat) : List UInt8 → Int
  | [] => (b a).toNat
  | c :: literal =>
    if b a ≠ 0 ∧ b a = c then lstrcmp (a + 1) literal else (b a).toNat - c.toNat

def lstrcmpN (a : Nat) : List UInt8 → Nat → Int
  | _, 0 => 0
  | [], _ + 1 => (b a).toNat
  | c :: literal, n + 1 =>
    if b a ≠ 0 ∧ b a = c then lstrcmpN (a + 1) literal n else (b a).toNat - c.toNat

def fdtString (base last off : Nat) : Option Nat :=
  if base + off ≥ last ∨ lstrlen b (base + off) (last - (base + off)) = last - (base + off)
  then none
  else some (base + off)

def readCells (val cells : Nat) : Nat :=
  (List.range cells).foldl (fun acc i => (acc <<< 32) % 2 ^ 64 ||| rd32 b (val + 4 * i)) 0

def readReg (val len addrCells sizeCells : Nat) : Option (Nat × Nat) :=
  if addrCells < 1 ∨ addrCells > 2 ∨ sizeCells < 1 ∨ sizeCells > 2 ∨
      len ≠ u32 (u32 (addrCells + sizeCells) * 4) then none
  else some (readCells b val addrCells, readCells b (val + 4 * addrCells) sizeCells)

structure Blocks where
  send : Nat
  sb : Nat
  sbend : Nat

structure Walk where
  sp : Nat
  depth : Nat
  memNode : Bool
  addrCells : Nat
  sizeCells : Nat

inductive Turn
  | next (w : Walk)
  | done (result : Option (Nat × Nat))

def beginNode (k : Blocks) (w : Walk) : Turn :=
  let nlen := lstrlen b w.sp (k.send - w.sp)
  let sp := w.sp + u32 (nlen + 1 + 3) / 4 * 4
  if sp > k.send then .done none
  else
    .next { w with
      sp := sp
      depth := w.depth + 1
      memNode := w.depth == 1 && decide (6 ≤ nlen) && lstrcmpN b w.sp memoryName 6 == 0 &&
        (nlen == 6 || b (w.sp + 6) == 64) }

def namedProperty (w : Walk) (pname val len : Nat) : Turn :=
  if w.memNode && lstrcmp b pname regName == 0 then
    .done (readReg b val len w.addrCells w.sizeCells)
  else if !w.memNode && w.depth == 1 && len == 4 then
    if lstrcmp b pname addressCellsName == 0 then .next { w with addrCells := rd32 b val }
    else if lstrcmp b pname sizeCellsName == 0 then .next { w with sizeCells := rd32 b val }
    else .next w
  else .next w

def property (k : Blocks) (w : Walk) : Turn :=
  if w.sp + 8 > k.send then .done none
  else
    let len := rd32 b w.sp
    let nameoff := rd32 b (w.sp + 4)
    let val := w.sp + 8
    let sp := val + u32 (len + 3) / 4 * 4
    if val + len > k.send ∨ sp > k.send then .done none
    else
      match fdtString b k.sb k.sbend nameoff with
      | none => .next { w with sp := sp }
      | some pname => namedProperty b { w with sp := sp } pname val len

def turn (k : Blocks) (w : Walk) : Turn :=
  let tok := rd32 b w.sp
  let w := { w with sp := w.sp + 4 }
  if tok = fdtEnd then .done none
  else if tok = fdtNop then .next w
  else if tok = fdtBeginNode then beginNode b k w
  else if tok = fdtEndNode then .next { w with depth := w.depth - 1, memNode := false }
  else if tok = fdtProp then property b k w
  else .done none

def walk (k : Blocks) : Nat → Walk → Option (Nat × Nat)
  | 0, _ => none
  | fuel + 1, w =>
    if w.sp + 4 ≤ k.send then
      match turn b k w with
      | .done result => result
      | .next w => walk k fuel w
    else none

/-- `dtb_memory`: base and size, or `none` for a return value of 0. -/
def dtbMemory (size : Nat) : Option (Nat × Nat) :=
  let structOff := rd32 b 8
  let stringsOff := rd32 b 12
  let structSize := rd32 b 36
  let stringsSize := rd32 b 32
  if structSize = 0 ∨ structOff > size ∨ stringsOff > size ∨ structSize > size - structOff ∨
      stringsSize > size - stringsOff then none
  else
    walk b ⟨structOff + structSize, stringsOff, stringsOff + stringsSize⟩ structSize
      ⟨structOff, 0, false, 2, 1⟩

end

section
variable {b : Nat → UInt8} {k : Blocks} {w w' : Walk}

lemma beginNode_advances (h : beginNode b k w = .next w') : w.sp ≤ w'.sp := by
  simp only [beginNode] at h
  split at h
  · cases h
  cases h
  exact Nat.le_add_right _ _

lemma namedProperty_sp {pname val len : Nat} (h : namedProperty b w pname val len = .next w') :
  w'.sp = w.sp := by
  unfold namedProperty at h
  split at h
  · cases h
  split at h
  · split at h
    · cases h
      rfl
    · split at h <;> cases h <;> rfl
  cases h
  rfl

lemma property_advances (h : property b k w = .next w') : w.sp ≤ w'.sp := by
  simp only [property] at h
  split at h
  · cases h
  split at h
  · cases h
  split at h
  · cases h
    show w.sp ≤ w.sp + 8 + _
    omega
  have hsp := namedProperty_sp h
  rw [hsp]
  show w.sp ≤ w.sp + 8 + _
  omega

lemma turn_advances (h : turn b k w = .next w') : w.sp + 4 ≤ w'.sp := by
  simp only [turn] at h
  split at h
  · cases h
  split at h
  · cases h
    exact le_rfl
  split at h
  · exact beginNode_advances h
  split at h
  · cases h
    exact le_rfl
  split at h
  · exact property_advances h
  · cases h

end

/-! ## `dtb_sniff`: is it a device tree? -/

open Mem (ramStart)

def dtbPtrLimit : Nat := ramStart + 16 <<< 30

def dtbMagicBe : BitVec 32 := 0xD00DFEED

def be32 (v : BitVec 32) : BitVec 32 :=
  ((v &&& 0xFF) <<< 24) ||| ((v &&& 0xFF00) <<< 8) ||| ((v >>> 8) &&& 0xFF00) |||
    ((v >>> 24) &&& 0xFF)

/-- `dtb_sniff`, with what it stores in `size_out`. -/
def dtbSniff (ptr : BitVec 64) (hdr : Fin 2 → BitVec 32) : Bool × Option (BitVec 32) :=
  if ptr < BitVec.ofNat 64 ramStart ∨ ptr ≥ BitVec.ofNat 64 dtbPtrLimit ∨ ptr &&& 7 ≠ 0 then
    (false, none)
  else if be32 (hdr 0) ≠ dtbMagicBe then (false, none)
  else
    let size := be32 (hdr 1)
    if size = 0 ∨ size > (BitVec.ofNat 64 dtbPtrLimit - ptr).setWidth 32 then (false, some size)
    else (true, some size)

/-- What the pointer and the first two words of the header should be like. -/
structure Plausible (ptr : BitVec 64) (hdr : Fin 2 → BitVec 32) : Prop where
  aligned : ptr.toNat % 8 = 0
  window : ramStart ≤ ptr.toNat ∧ ptr.toNat < dtbPtrLimit
  magic : be32 (hdr 0) = dtbMagicBe
  size : be32 (hdr 1) ≠ 0 ∧ (be32 (hdr 1)).toNat ≤ dtbPtrLimit - ptr.toNat

variable {ptr : BitVec 64} {hdr : Fin 2 → BitVec 32}

lemma toNat_room (hptr : ptr.toNat < dtbPtrLimit) :
  ((BitVec.ofNat 64 dtbPtrLimit - ptr).setWidth 32).toNat = (dtbPtrLimit - ptr.toNat) % 2 ^ 32 := by
  rw [BitVec.toNat_setWidth, BitVec.toNat_sub, BitVec.toNat_ofNat]
  omega

lemma and_seven_eq_zero (ptr : BitVec 64) : ptr &&& 7 = 0 ↔ ptr.toNat % 8 = 0 := by
  rw [← BitVec.toNat_inj, BitVec.toNat_and]
  exact Eq.congr_left (Nat.and_two_pow_sub_one_eq_mod ptr.toNat 3)

lemma dtbSniff_iff (ptr : BitVec 64) (hdr : Fin 2 → BitVec 32) :
  (dtbSniff ptr hdr).1 = true ↔ Plausible ptr hdr ∧
    (be32 (hdr 1)).toNat ≤ (dtbPtrLimit - ptr.toNat) % 2 ^ 32 := by
  simp only [dtbSniff, apply_ite Prod.fst]
  split_ifs with hptr hmagic hsize
  · refine iff_of_false id fun h => ?_
    rcases hptr with hlow | hhigh | hodd
    · exact absurd h.1.window.1 (not_le.mpr hlow)
    · exact absurd h.1.window.2 (not_lt.mpr hhigh)
    · exact hodd ((and_seven_eq_zero ptr).mpr h.1.aligned)
  · exact iff_of_false id fun h => hmagic h.1.magic
  · refine iff_of_false id fun h => ?_
    rcases hsize with hzero | hlarge
    · exact h.1.size.1 hzero
    rw [gt_iff_lt, BitVec.lt_def, toNat_room h.1.window.2] at hlarge
    omega
  simp only [not_or, not_not, BitVec.not_lt, ge_iff_le, BitVec.not_le] at hptr hmagic
  obtain ⟨hlow, hhigh, haligned⟩ := hptr
  obtain ⟨hzero, hroom⟩ := not_or.mp hsize
  rw [gt_iff_lt, BitVec.not_lt, BitVec.le_def, toNat_room hhigh] at hroom
  exact iff_of_true rfl ⟨⟨(and_seven_eq_zero ptr).mp haligned, ⟨hlow, hhigh⟩, hmagic, hzero,
    Nat.le_trans hroom (Nat.mod_le _ _)⟩, hroom⟩

/-- `dtb_sniff` decides rightly except about plausible blobs that are larger than the low
32 bits of the room below the limit. -/
theorem dtb_sniff_exact_iff (ptr : BitVec 64) (hdr : Fin 2 → BitVec 32) :
  ((dtbSniff ptr hdr).1 = true ↔ Plausible ptr hdr) ↔ (Plausible ptr hdr →
    (be32 (hdr 1)).toNat ≤ (dtbPtrLimit - ptr.toNat) % 2 ^ 32) := by
  rw [dtbSniff_iff, and_iff_left_iff_imp]

def pageHeader : Fin 2 → BitVec 32 := fun i => if i = 0 then 0xEDFE0DD0 else 0x00100000

/-- At the start of RAM the room is a multiple of 4 GB, and no size is accepted. -/
theorem blob_at_ram_start_rejected :
  Plausible 0x40000000 pageHeader ∧ (dtbSniff 0x40000000 pageHeader).1 = false :=
  ⟨⟨by decide, by decide, by decide, by decide⟩, by decide⟩

end Aeos.Dtb
