/-
# Device trees

A device tree, its flattened form, and the memory it describes. In the structure block a node's
properties come before its children, FDT_NOP may stand between any two tokens, and names and
values are padded to four bytes. Several properties may share one string, or the end of one.
-/

import Aeos.Lib.Bytes

namespace Aeos.Dtb

open Lib

/-! ## Trees -/

structure Property where
  name : List UInt8
  value : List UInt8
  deriving DecidableEq

inductive Tree
  | node (name : List UInt8) (props : List Property) (children : List Tree)

def Tree.name : Tree → List UInt8
  | .node name _ _ => name

def Tree.props : Tree → List Property
  | .node _ props _ => props

def memoryName : List UInt8 := [109, 101, 109, 111, 114, 121]

def regName : List UInt8 := [114, 101, 103]

def addressCellsName : List UInt8 :=
  [35, 97, 100, 100, 114, 101, 115, 115, 45, 99, 101, 108, 108, 115]

def sizeCellsName : List UInt8 := [35, 115, 105, 122, 101, 45, 99, 101, 108, 108, 115]

def isMemoryName (name : List UInt8) : Bool :=
  name == memoryName || (memoryName ++ [64]).isPrefixOf name

def lookup (props : List Property) (name : List UInt8) : Option (List UInt8) :=
  (props.find? fun p => p.name == name).map Property.value

def cellsOf (props : List Property) (name : List UInt8) (default : Nat) : Nat :=
  match lookup props name with
  | some value => if value.length = 4 then beVal value else default
  | none => default

def decodePair (addrCells sizeCells : Nat) (reg : List UInt8) : Option (Nat × Nat) :=
  if (1 ≤ addrCells ∧ addrCells ≤ 2) ∧ (1 ≤ sizeCells ∧ sizeCells ≤ 2) ∧
      reg.length = (addrCells + sizeCells) * 4 then
    some (beVal (reg.take (4 * addrCells)), beVal (reg.drop (4 * addrCells)))
  else none

def memoryReg (child : Tree) : Option (List UInt8) :=
  if isMemoryName child.name then lookup child.props regName else none

/-- The memory that a tree describes: base and size from the first memory node below the
root that has a `reg`. -/
def memoryOf : Tree → Option (Nat × Nat)
  | .node _ props children =>
    (children.findSome? memoryReg).bind
      (decodePair (cellsOf props addressCellsName 2) (cellsOf props sizeCellsName 1))

/-! ## The structure block -/

inductive Piece
  | beginNode (name : List UInt8)
  | endNode
  | prop (p : Property)

mutual

def pieces : Tree → List Piece
  | .node name props children =>
    .beginNode name :: (props.map .prop ++ (piecesAll children ++ [.endNode]))

def piecesAll : List Tree → List Piece
  | [] => []
  | t :: ts => pieces t ++ piecesAll ts

end

/-- A token; a property refers to its name by an offset. -/
inductive Token
  | beginNode (name : List UInt8)
  | endNode
  | prop (nameoff : Nat) (value : List UInt8)
  | nop

def padded (bytes : List UInt8) : List UInt8 :=
  bytes ++ List.replicate ((4 - bytes.length % 4) % 4) 0

def Token.encode : Token → List UInt8
  | .beginNode name => beBytes 1 ++ padded (name ++ [0])
  | .endNode => beBytes 2
  | .prop nameoff value => beBytes 3 ++ (beBytes value.length ++ (beBytes nameoff ++ padded value))
  | .nop => beBytes 4

def encode : List Token → List UInt8
  | [] => beBytes 9
  | t :: ts => t.encode ++ encode ts

def StringAt (strings : List UInt8) (off : Nat) (name : List UInt8) : Prop :=
  ∃ front rest, strings = front ++ (name ++ 0 :: rest) ∧ front.length = off

inductive Flat (strings : List UInt8) : List Piece → List Token → Prop
  | nil : Flat strings [] []
  | nop {ps ts} : Flat strings ps ts → Flat strings ps (.nop :: ts)
  | beginNode {ps ts} (name : List UInt8) : Flat strings ps ts →
      Flat strings (.beginNode name :: ps) (.beginNode name :: ts)
  | endNode {ps ts} : Flat strings ps ts → Flat strings (.endNode :: ps) (.endNode :: ts)
  | prop {ps ts} {p : Property} {nameoff : Nat} : StringAt strings nameoff p.name →
      Flat strings ps ts → Flat strings (.prop p :: ps) (.prop nameoff p.value :: ts)

mutual

def Tree.WellFormed : Tree → Prop
  | .node name props children =>
    0 ∉ name ∧ (∀ p ∈ props, 0 ∉ p.name) ∧ (props.map Property.name).Nodup ∧
      AllWellFormed children

def AllWellFormed : List Tree → Prop
  | [] => True
  | t :: ts => t.WellFormed ∧ AllWellFormed ts

end

/-- A blob of `size` bytes serialises a tree. Of the header, the offsets and sizes of the
two blocks matter here. -/
structure Serialises (b : Nat → UInt8) (size : Nat) (t : Tree) (tokens : List Token)
    (strings : List UInt8) (structOff stringsOff : Nat) : Prop where
  wellFormed : t.WellFormed
  flat : Flat strings (pieces t) tokens
  size_lt : size < 2 ^ 32
  offDtStruct : BytesAt b 8 (beBytes structOff)
  offDtStrings : BytesAt b 12 (beBytes stringsOff)
  sizeDtStrings : BytesAt b 32 (beBytes strings.length)
  sizeDtStruct : BytesAt b 36 (beBytes (encode tokens).length)
  dtStruct : BytesAt b structOff (encode tokens)
  dtStruct_le : structOff + (encode tokens).length ≤ size
  dtStrings : BytesAt b stringsOff strings
  dtStrings_le : stringsOff + strings.length ≤ size

open List

structure Scan where
  depth : Nat
  memNode : Bool
  addrCells : Nat
  sizeCells : Nat

def Scan.enter (s : Scan) (name : List UInt8) : Scan :=
  { s with depth := s.depth + 1, memNode := s.depth == 1 && isMemoryName name }

def Scan.leave (s : Scan) : Scan := { s with depth := s.depth - 1, memNode := false }

def Scan.note (s : Scan) (p : Property) : Scan :=
  if !s.memNode && s.depth == 1 && p.value.length == 4 then
    if p.name == addressCellsName then { s with addrCells := beVal p.value }
    else if p.name == sizeCellsName then { s with sizeCells := beVal p.value }
    else s
  else s

def scan : Scan → List Piece → Option (Nat × Nat)
  | _, [] => none
  | s, .beginNode name :: ps => scan (s.enter name) ps
  | s, .endNode :: ps => scan s.leave ps
  | s, .prop p :: ps =>
    if s.memNode && p.name == regName then decodePair s.addrCells s.sizeCells p.value
    else scan (s.note p) ps

variable {s : Scan}

lemma note_deep (hdepth : s.depth ≠ 1) (p : Property) : s.note p = s := by
  simp [Scan.note, hdepth]

lemma note_memNode (hmem : s.memNode = true) (p : Property) : s.note p = s := by
  simp [Scan.note, hmem]

lemma scan_props_deep (hdepth : s.depth ≠ 1) (hmem : s.memNode = false)
  (props : List Property) (rest : List Piece) : scan s (props.map .prop ++ rest) = scan s rest := by
  induction props with
  | nil => rfl
  | cons p props ih =>
    rw [map_cons, cons_append, scan, hmem, Bool.false_and,
      if_neg Bool.false_ne_true, note_deep hdepth, ih]

mutual

lemma scan_pieces_deep {s : Scan} (hdepth : 2 ≤ s.depth) (t : Tree) (rest : List Piece) :
  scan s (pieces t ++ rest) = scan { s with memNode := false } rest := by
  obtain ⟨name, props, children⟩ := t
  have hmem : (s.enter name).memNode = false := by
    rw [Scan.enter, show (s.depth == 1) = false from beq_false_of_ne (by omega), Bool.false_and]
  have hdeep : (s.enter name).depth = s.depth + 1 := rfl
  rw [pieces, cons_append, scan, append_assoc,
    scan_props_deep (by omega) hmem, append_assoc, singleton_append,
    scan_piecesAll_deep (by omega)]
  rfl

lemma scan_piecesAll_deep {s : Scan} (hdepth : 2 ≤ s.depth) (ts : List Tree)
  (rest : List Piece) : scan s (piecesAll ts ++ .endNode :: rest) = scan s.leave rest := by
  match ts with
  | [] => rfl
  | t :: ts =>
    rw [piecesAll, append_assoc, scan_pieces_deep hdepth, scan_piecesAll_deep (by exact hdepth)]
    rfl

end

lemma lookup_cons (p : Property) (props : List Property) (name : List UInt8) :
  lookup (p :: props) name = if p.name == name then some p.value else lookup props name := by
  rw [lookup, List.find?_cons]
  cases p.name == name <;> rfl

lemma scan_props_memory (hmem : s.memNode = true) (props : List Property) (rest : List Piece) :
  scan s (props.map .prop ++ rest) =
    (lookup props regName).elim (scan s rest) (decodePair s.addrCells s.sizeCells) := by
  induction props with
  | nil => rfl
  | cons p props ih =>
    rw [map_cons, cons_append, scan, hmem, Bool.true_and, lookup_cons]
    cases p.name == regName with
    | true => rfl
    | false =>
      rw [if_neg Bool.false_ne_true, note_memNode hmem, ih]
      rfl

lemma scan_child (hdepth : s.depth = 1) (hmem : s.memNode = false) (child : Tree)
  (rest : List Piece) : scan s (pieces child ++ rest) =
    (memoryReg child).elim (scan s rest) (decodePair s.addrCells s.sizeCells) := by
  obtain ⟨name, props, children⟩ := child
  have hleave : (s.enter name).leave = s := by
    cases s
    simp only at hmem
    simp [Scan.enter, Scan.leave, hmem]
  have hdeep : (s.enter name).depth = 2 := congrArg (· + 1) hdepth
  have hnode : (s.enter name).memNode = isMemoryName name := by simp [Scan.enter, hdepth]
  rw [pieces, cons_append, scan, append_assoc, append_assoc,
    singleton_append, memoryReg, Tree.name, Tree.props]
  cases hname : isMemoryName name with
  | true =>
    rw [scan_props_memory (hnode.trans hname), scan_piecesAll_deep (by omega), hleave]
    rfl
  | false =>
    rw [scan_props_deep (by omega) (hnode.trans hname), scan_piecesAll_deep (by omega), hleave]
    rfl

lemma scan_children (hdepth : s.depth = 1) (hmem : s.memNode = false)
  (children : List Tree) (rest : List Piece) : scan s (piecesAll children ++ rest) =
    (children.findSome? memoryReg).elim (scan s rest) (decodePair s.addrCells s.sizeCells) := by
  induction children with
  | nil => rfl
  | cons child children ih =>
    rw [piecesAll, append_assoc, scan_child hdepth hmem, List.findSome?_cons]
    cases memoryReg child with
    | some reg => rfl
    | none => exact ih

lemma cellsOf_cons (p : Property) (props : List Property) (name : List UInt8) (d : Nat) :
  cellsOf (p :: props) name d =
    if p.name == name then (if p.value.length = 4 then beVal p.value else d)
    else cellsOf props name d := by
  rw [cellsOf, lookup_cons]
  cases p.name == name <;> rfl

lemma cellsOf_of_notMem {props : List Property} {name : List UInt8}
  (hname : name ∉ props.map Property.name) (d : Nat) : cellsOf props name d = d := by
  induction props with
  | nil => rfl
  | cons p props ih =>
    obtain ⟨hp, hprops⟩ := not_or.mp (mt mem_cons.mpr hname)
    rw [cellsOf_cons, if_neg (by simpa using Ne.symm hp), ih hprops]

section
variable {s : Scan}

lemma note_root (hdepth : s.depth = 1) (hmem : s.memNode = false) (p : Property) :
  s.note p = { s with
    addrCells := cellsOf [p] addressCellsName s.addrCells
    sizeCells := cellsOf [p] sizeCellsName s.sizeCells } := by
  have hne : addressCellsName ≠ sizeCellsName := by decide
  have hnil : ∀ name d, cellsOf [] name d = d := fun _ _ => rfl
  obtain ⟨depth, memNode, addrCells, sizeCells⟩ := s
  obtain rfl : depth = 1 := hdepth
  obtain rfl : memNode = false := hmem
  simp only [Scan.note, cellsOf_cons, hnil, beq_iff_eq]
  by_cases hlen : p.value.length = 4
  · by_cases haddr : p.name = addressCellsName
    · simp [hlen, haddr, hne]
    · by_cases hsize : p.name = sizeCellsName <;> simp [hlen, haddr, hsize, hne.symm]
  · simp [hlen]

lemma scan_props_root (hdepth : s.depth = 1) (hmem : s.memNode = false) {props : List Property}
  (hnodup : (props.map Property.name).Nodup) (rest : List Piece) :
  scan s (props.map .prop ++ rest) = scan { s with
      addrCells := cellsOf props addressCellsName s.addrCells
      sizeCells := cellsOf props sizeCellsName s.sizeCells } rest := by
  induction props generalizing s with
  | nil => rfl
  | cons p props ih =>
    obtain ⟨hfresh, hnodup⟩ := nodup_cons.mp hnodup
    -- a name that is found here is not found again
    have hcells :
        ∀ name d, cellsOf props name (cellsOf [p] name d) = cellsOf (p :: props) name d := by
      intro name d
      rw [cellsOf_cons, cellsOf_cons]
      split
      · next hp => exact cellsOf_of_notMem (by rw [← eq_of_beq hp]; exact hfresh) _
      · rfl
    rw [map_cons, cons_append, scan, hmem, Bool.false_and,
      if_neg Bool.false_ne_true, note_root hdepth hmem, ih (by exact hdepth) (by exact hmem) hnodup]
    simp only [hcells, hmem]

end

/-- Scanning a tree from the start finds the memory it describes. -/
lemma scan_pieces (t : Tree) (hwf : t.WellFormed) :
  scan ⟨0, false, 2, 1⟩ (pieces t) = memoryOf t := by
  obtain ⟨name, props, children⟩ := t
  obtain ⟨-, -, hnodup, -⟩ := hwf
  rw [pieces, scan, scan_props_root rfl rfl hnodup, scan_children rfl rfl, memoryOf]
  cases children.findSome? memoryReg <;> rfl

end Aeos.Dtb
