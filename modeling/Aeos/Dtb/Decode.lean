/-
# The walker reads the tree

One turn of the loop takes one token off the structure block and does with it what
`scan` does with the piece it stands for.
-/

import Aeos.Dtb.Model

namespace Aeos.Dtb

open Lib List
variable {b : Nat → UInt8}

lemma rd32_eq (b : Nat → UInt8) (p : Nat) : rd32 b p = beWord b p := byteSwap_leWord b p

lemma rd32_of_bytesAt {p n : Nat} (hn : n < 2 ^ 32) (h : BytesAt b p (beBytes n)) :
  rd32 b p = n := by
  rw [rd32_eq, beWord_of_bytesAt h rfl, beVal_beBytes hn]

variable {value name : List UInt8} {val : Nat}

lemma rd32_value {p : Nat} (h : BytesAt b p value) (hlen : value.length = 4) :
  rd32 b p = beVal value := by
  rw [rd32_eq, beWord_of_bytesAt h hlen]

lemma lstrlen_of_bytesAt {s room : Nat} (hname : 0 ∉ name) (h : BytesAt b s (name ++ [0]))
  (hroom : name.length < room) : lstrlen b s room = name.length := by
  induction name generalizing s room with
  | nil =>
    obtain ⟨room, rfl⟩ := Nat.exists_eq_add_of_lt hroom
    simp [lstrlen, h.1]
  | cons c name ih =>
    obtain ⟨hc, hname⟩ := not_or.mp (mt mem_cons.mpr hname)
    obtain ⟨hb, hrest⟩ := h
    cases room with
    | zero => cases hroom
    | succ room =>
      rw [length_cons, Nat.add_lt_add_iff_right] at hroom
      rw [lstrlen, hb, if_neg (Ne.symm hc), ih hname hrest hroom, length_cons]

lemma byte_sub_eq_zero {x y : UInt8} : (x.toNat : Int) - y.toNat = 0 ↔ x = y := by
  rw [Int.sub_eq_zero, Int.ofNat_inj, UInt8.toNat_inj]

section
variable (hname : 0 ∉ name)
include hname
variable {literal : List UInt8}

lemma lstrcmp_eq_zero {a : Nat} (hliteral : 0 ∉ literal) (h : BytesAt b a (name ++ [0])) :
  (lstrcmp b a literal == 0) = (name == literal) := by
  rw [Bool.eq_iff_iff, beq_iff_eq, beq_iff_eq]
  induction literal generalizing a name with
  | nil =>
    cases name with
    | nil => simp [lstrcmp, h.1]
    | cons c name =>
      have hc : c ≠ 0 := fun h => hname (h ▸ mem_cons_self)
      have hnat : c.toNat ≠ 0 := fun h => hc (UInt8.toNat_inj.mp h)
      simp [lstrcmp, h.1, hnat]
  | cons l literal ih =>
    obtain ⟨hl, hliteral⟩ := not_or.mp (mt mem_cons.mpr hliteral)
    cases name with
    | nil =>
      rw [lstrcmp, h.1, if_neg fun h => h.1 rfl, byte_sub_eq_zero]
      exact iff_of_false hl (by simp)
    | cons c name =>
      obtain ⟨hc, hname⟩ := not_or.mp (mt mem_cons.mpr hname)
      obtain ⟨hb, hrest⟩ := h
      rw [lstrcmp, hb, List.cons.injEq]
      by_cases heq : c = l
      · rw [if_pos ⟨Ne.symm hc, heq⟩, ih hname hliteral hrest]
        simp [heq]
      rw [if_neg fun h => heq h.2, byte_sub_eq_zero]
      simp [heq]

lemma lstrcmpN_eq_zero {a : Nat} (hliteral : 0 ∉ literal) (h : BytesAt b a (name ++ [0])) :
  lstrcmpN b a literal literal.length = 0 ↔ literal <+: name := by
  induction literal generalizing a name with
  | nil => simp [lstrcmpN]
  | cons l literal ih =>
    obtain ⟨hl, hliteral⟩ := not_or.mp (mt mem_cons.mpr hliteral)
    cases name with
    | nil =>
      rw [length_cons, lstrcmpN, h.1, if_neg fun h => h.1 rfl, byte_sub_eq_zero]
      exact iff_of_false hl (by simp)
    | cons c name =>
      obtain ⟨hc, hname⟩ := not_or.mp (mt mem_cons.mpr hname)
      obtain ⟨hb, hrest⟩ := h
      rw [length_cons, lstrcmpN, hb, cons_prefix_cons]
      by_cases heq : c = l
      · rw [if_pos ⟨Ne.symm hc, heq⟩, ih hname hliteral hrest]
        simp [heq]
      rw [if_neg fun h => heq h.2, byte_sub_eq_zero]
      simp [heq, Ne.symm heq]

lemma memory_test {sp : Nat} (h : BytesAt b sp (name ++ [0])) :
  (decide (6 ≤ name.length) && lstrcmpN b sp memoryName 6 == 0 &&
    (name.length == 6 || b (sp + 6) == 64)) = isMemoryName name := by
  have hcmp : lstrcmpN b sp memoryName 6 = 0 ↔ memoryName <+: name :=
    lstrcmpN_eq_zero hname (by decide) h
  by_cases hmemory : memoryName <+: name
  · obtain ⟨rest, rfl⟩ := hmemory
    rw [append_assoc, bytesAt_append] at h
    have hzero := beq_iff_eq.mpr (hcmp.mpr (prefix_append memoryName rest))
    have hprefix :
        (memoryName ++ [64]).isPrefixOf (memoryName ++ rest) = ([64].isPrefixOf rest) := rfl
    rw [hzero, isMemoryName, hprefix]
    cases rest with
    | nil => rfl
    | cons c rest =>
      have hc : b (sp + 6) = c := h.2.1
      have hne : (memoryName ++ c :: rest == memoryName) = false :=
        beq_false_of_ne (by simp)
      rw [hc, hne]
      simp [memoryName, List.isPrefixOf, Bool.beq_comm]
  have hnonzero := beq_false_of_ne (mt hcmp.mp hmemory)
  have hne : (name == memoryName) = false :=
    beq_false_of_ne fun h => hmemory (h ▸ prefix_refl _)
  have hprefix : (memoryName ++ [64]).isPrefixOf name = false := by
    rw [Bool.eq_false_iff]
    exact fun h => hmemory ((prefix_append _ _).trans ( isPrefixOf_iff_prefix.mp h))
  rw [hnonzero, isMemoryName, hne, hprefix, Bool.and_false, Bool.false_and, Bool.false_or]

end

section
variable (h : BytesAt b val value)
include h

lemma readCells_one (hlen : value.length = 4) : readCells b val 1 = beVal value := by
  rw [← rd32_value h hlen]
  simp [readCells, range_succ]

lemma readCells_two (hlen : value.length = 8) : readCells b val 2 = beVal value := by
  have hsplit := (take_append_drop 4 value).symm
  have htake : (value.take 4).length = 4 := by simp [hlen]
  have hdrop : (value.drop 4).length = 4 := by simp [hlen]
  rw [hsplit, bytesAt_append, htake] at h
  have hhigh := rd32_value h.1 htake
  have hlow := rd32_value h.2 hdrop
  have hhigh_lt : beVal (value.take 4) < 2 ^ 32 := by simpa [htake] using beVal_lt (value.take 4)
  have hlow_lt : beVal (value.drop 4) < 2 ^ 32 := by simpa [hdrop] using beVal_lt (value.drop 4)
  have hcells : readCells b val 2 =
      (beVal (value.take 4) <<< 32) % 2 ^ 64 ||| beVal (value.drop 4) := by
    rw [← hhigh, ← hlow]
    simp [readCells, range_succ]
  rw [hcells, Nat.shiftLeft_eq, Nat.mod_eq_of_lt (by omega),
    or_of_aligned (k := 32) (by omega) hlow_lt]
  conv_rhs => rw [hsplit, beVal_append, hdrop]
  omega

lemma readCells_eq {cells : Nat} (hcells : 1 ≤ cells ∧ cells ≤ 2)
    (hlen : value.length = 4 * cells) : readCells b val cells = beVal value := by
  obtain rfl | rfl : cells = 1 ∨ cells = 2 := by omega
  · exact readCells_one h hlen
  · exact readCells_two h hlen

lemma readReg_eq (addrCells sizeCells : Nat) :
  readReg b val value.length addrCells sizeCells = decodePair addrCells sizeCells value := by
  unfold readReg decodePair
  by_cases hcells : (1 ≤ addrCells ∧ addrCells ≤ 2) ∧ 1 ≤ sizeCells ∧ sizeCells ≤ 2
  · have hbound : u32 (u32 (addrCells + sizeCells) * 4) = (addrCells + sizeCells) * 4 := by
      rw [u32_of_lt (n := addrCells + sizeCells) (by omega), u32_of_lt (by omega)]
    by_cases hlen : value.length = (addrCells + sizeCells) * 4
    · have htake : (value.take (4 * addrCells)).length = 4 * addrCells := by
        rw [length_take]
        omega
      have hdrop : (value.drop (4 * addrCells)).length = 4 * sizeCells := by
        rw [length_drop]
        omega
      rw [← take_append_drop (4 * addrCells) value, bytesAt_append, htake] at h
      rw [if_neg (by omega), if_pos ⟨hcells.1, hcells.2, hlen⟩, readCells_eq h.1 hcells.1 htake,
        readCells_eq h.2 hcells.2 hdrop]
    · rw [if_pos (by omega), if_neg fun h => hlen h.2.2]
  · rw [if_pos (by omega), if_neg fun h => hcells ⟨h.1, h.2.1⟩]

end

def Scan.at (s : Scan) (sp : Nat) : Walk := ⟨sp, s.depth, s.memNode, s.addrCells, s.sizeCells⟩

lemma length_padded (bytes : List UInt8) : (padded bytes).length = (bytes.length + 3) / 4 * 4 := by
  rw [padded, length_append, length_replicate]
  omega

section
variable {k : Blocks} {s : Scan} {sp : Nat}

lemma turn_end (h : BytesAt b sp (beBytes 9)) : turn b k (s.at sp) = .done none := by
  have htok : rd32 b sp = 9 := rd32_of_bytesAt (by decide) h
  simp [turn, Scan.at, htok, fdtEnd]

lemma turn_nop (h : BytesAt b sp Token.nop.encode) :
  turn b k (s.at sp) = .next (s.at (sp + Token.nop.encode.length)) := by
  have htok : rd32 b sp = 4 := rd32_of_bytesAt (by decide) h
  simp [turn, Scan.at, htok, fdtEnd, fdtNop, Token.encode]

lemma turn_endNode (h : BytesAt b sp Token.endNode.encode) :
  turn b k (s.at sp) = .next (s.leave.at (sp + Token.endNode.encode.length)) := by
  have htok : rd32 b sp = 2 := rd32_of_bytesAt (by decide) h
  simp [turn, Scan.at, Scan.leave, htok, fdtEnd, fdtNop, fdtBeginNode, fdtEndNode,
    Token.encode]

variable {name strings : List UInt8} {off : Nat}

lemma turn_beginNode (hname : 0 ∉ name) (h : BytesAt b sp (Token.beginNode name).encode)
  (hsend : sp + (Token.beginNode name).encode.length ≤ k.send) (hlt : k.send < 2 ^ 32) :
  turn b k (s.at sp) = .next ((s.enter name).at (sp + (Token.beginNode name).encode.length)) := by
  rw [Token.encode, padded, bytesAt_append, length_beBytes, bytesAt_append] at h
  obtain ⟨htok, hbytes, -⟩ := h
  have htok : rd32 b sp = 1 := rd32_of_bytesAt (by decide) htok
  rw [Token.encode, length_append, length_beBytes, length_padded, length_append,
    length_singleton] at hsend ⊢
  have hlen : lstrlen b (sp + 4) (k.send - (sp + 4)) = name.length :=
    lstrlen_of_bytesAt hname hbytes (by omega)
  have hpad : u32 (name.length + 1 + 3) = name.length + 1 + 3 := u32_of_lt (by omega)
  have htest := memory_test hname hbytes
  have hturn : turn b k (s.at sp) = beginNode b k (s.at (sp + 4)) := by
    simp [turn, Scan.at, htok, fdtEnd, fdtNop, fdtBeginNode]
  rw [hturn, beginNode]
  simp only [Scan.at, hlen, hpad, Scan.enter, ← htest, Bool.and_assoc]
  rw [if_neg (by omega), Nat.add_assoc sp]

lemma string_bytesAt (hstrings : BytesAt b k.sb strings) (hstring : StringAt strings off name) :
  BytesAt b (k.sb + off) (name ++ [0]) ∧ off + name.length < strings.length := by
  obtain ⟨front, rest, rfl, rfl⟩ := hstring
  rw [← singleton_append, ← append_assoc name, bytesAt_append, bytesAt_append] at hstrings
  refine ⟨hstrings.2.1, ?_⟩
  simp only [length_append, length_cons]
  omega

lemma fdtString_eq (hname : 0 ∉ name) (hstrings : BytesAt b k.sb strings)
  (hsbend : k.sbend = k.sb + strings.length) (hstring : StringAt strings off name) :
  fdtString b k.sb k.sbend off = some (k.sb + off) := by
  obtain ⟨hbytes, hoff⟩ := string_bytesAt hstrings hstring
  have hlen : lstrlen b (k.sb + off) (k.sbend - (k.sb + off)) = name.length :=
    lstrlen_of_bytesAt hname hbytes (by omega)
  rw [fdtString, hlen, if_neg (by omega)]

variable {p : Property}

lemma namedProperty_eq {pname val : Nat} (hname : 0 ∉ p.name)
  (hpname : BytesAt b pname (p.name ++ [0])) (hval : BytesAt b val p.value) :
  namedProperty b (s.at sp) pname val p.value.length = if s.memNode && p.name == regName then
      .done (decodePair s.addrCells s.sizeCells p.value) else .next ((s.note p).at sp) := by
  have hcmp : ∀ literal : List UInt8, 0 ∉ literal →
      (lstrcmp b pname literal == 0) = (p.name == literal) :=
    fun literal hliteral => lstrcmp_eq_zero hname hliteral hpname
  rw [namedProperty, hcmp regName (by decide), hcmp addressCellsName (by decide),
    hcmp sizeCellsName (by decide), readReg_eq hval]
  by_cases hreg : (s.memNode && p.name == regName) = true
  · rw [if_pos hreg]
    exact if_pos hreg
  rw [if_neg hreg]
  refine (if_neg hreg).trans ?_
  by_cases hcells : (!s.memNode && s.depth == 1 && p.value.length == 4) = true
  · have hlen : p.value.length = 4 := by
      simp only [Bool.and_eq_true, beq_iff_eq] at hcells
      exact hcells.2
    rw [Scan.note, if_pos hcells, rd32_value hval hlen]
    refine (if_pos hcells).trans ?_
    by_cases haddr : (p.name == addressCellsName) = true
    · rw [if_pos haddr, if_pos haddr]
      rfl
    rw [if_neg haddr, if_neg haddr]
    by_cases hsize : (p.name == sizeCellsName) = true
    · rw [if_pos hsize, if_pos hsize]
      rfl
    · rw [if_neg hsize, if_neg hsize]
  rw [Scan.note, if_neg hcells]
  exact if_neg hcells

lemma property_eq {pname len : Nat} (hlen : rd32 b sp = len) (hnameoff : rd32 b (sp + 4) = off)
  (hpname : fdtString b k.sb k.sbend off = some pname)
  (hsend : sp + 8 + (len + 3) / 4 * 4 ≤ k.send) (hlt : k.send < 2 ^ 32) : property b k (s.at sp) =
    namedProperty b (s.at (sp + 8 + (len + 3) / 4 * 4)) pname (sp + 8) len := by
  have hpad : u32 (len + 3) = len + 3 := u32_of_lt (by omega)
  simp only [property, Scan.at, hlen, hnameoff, hpad, hpname]
  rw [if_neg (by omega), if_neg (by omega)]

lemma turn_prop (hname : 0 ∉ p.name) (hstrings : BytesAt b k.sb strings)
  (hsbend : k.sbend = k.sb + strings.length) (hstring : StringAt strings off p.name)
  (h : BytesAt b sp (Token.prop off p.value).encode)
  (hsend : sp + (Token.prop off p.value).encode.length ≤ k.send) (hlt : k.send < 2 ^ 32)
  (hlt' : k.sbend < 2 ^ 32) : turn b k (s.at sp) = if s.memNode && p.name == regName then
      .done (decodePair s.addrCells s.sizeCells p.value)
    else .next ((s.note p).at (sp + (Token.prop off p.value).encode.length)) := by
  obtain ⟨hpname, hoff⟩ := string_bytesAt hstrings hstring
  simp only [Token.encode, bytesAt_append, length_beBytes, padded] at h
  obtain ⟨htok, hlen, hnameoff, hval, -⟩ := h
  have hsize : (Token.prop off p.value).encode.length = 4 + 8 + (p.value.length + 3) / 4 * 4 := by
    simp only [Token.encode, length_append, length_beBytes, length_padded]
    omega
  rw [hsize] at hsend ⊢
  have htok : rd32 b sp = 3 := rd32_of_bytesAt (by decide) htok
  have hlen := rd32_of_bytesAt (by omega) hlen
  have hnameoff := rd32_of_bytesAt (by omega) hnameoff
  have hturn : turn b k (s.at sp) = property b k (s.at (sp + 4)) := by
    simp [turn, Scan.at, htok, fdtEnd, fdtNop, fdtBeginNode, fdtEndNode, fdtProp]
  rw [hturn, property_eq hlen hnameoff (fdtString_eq hname hstrings hsbend hstring) (by omega) hlt,
    namedProperty_eq hname hpname hval, Nat.add_assoc sp, Nat.add_assoc sp]

end

section
variable {k : Blocks}

lemma walk_next {w w' : Walk} (fuel : Nat) (hsp : w.sp + 4 ≤ k.send)
  (hturn : turn b k w = .next w') : walk b k (fuel + 1) w = walk b k fuel w' := by
  rw [walk, if_pos hsp, hturn]

lemma walk_done {w : Walk} {result : Option (Nat × Nat)} (fuel : Nat) (hsp : w.sp + 4 ≤ k.send)
  (hturn : turn b k w = .done result) : walk b k (fuel + 1) w = result := by
  rw [walk, if_pos hsp, hturn]

lemma length_encode (ts : List Token) : 4 * (ts.length + 1) ≤ (encode ts).length := by
  induction ts with
  | nil => simp [encode]
  | cons t ts ih =>
    have hone : 4 ≤ t.encode.length := by
      cases t <;> simp only [Token.encode, length_append, length_beBytes] <;> omega
    rw [encode, length_append, length_cons]
    omega

variable {ts : List Token}

lemma encode_cons {t : Token} {sp fuel : Nat}
  (h : BytesAt b sp (encode (t :: ts))) (hsend : sp + (encode (t :: ts)).length = k.send)
  (hfuel : (t :: ts).length < fuel) :
  ∃ fuel', fuel = fuel' + 1 ∧ ts.length < fuel' ∧ sp + 4 ≤ k.send ∧
    sp + t.encode.length ≤ k.send ∧ BytesAt b sp t.encode ∧
    BytesAt b (sp + t.encode.length) (encode ts) ∧
    sp + t.encode.length + (encode ts).length = k.send := by
  have hlen := length_encode ts
  rw [encode, bytesAt_append] at h
  rw [encode, length_append, ← Nat.add_assoc] at hsend
  rw [length_cons] at hfuel
  exact ⟨fuel - 1, by omega, by omega, by omega, by omega, h.1, h.2, hsend⟩

def Piece.NulFree : Piece → Prop
  | .beginNode name => 0 ∉ name
  | .endNode => True
  | .prop p => 0 ∉ p.name

lemma walk_eq_scan {strings : List UInt8} {ps : List Piece}
  (hflat : Flat strings ps ts) (hnul : ∀ p ∈ ps, p.NulFree)
  (hstrings : BytesAt b k.sb strings) (hsbend : k.sbend = k.sb + strings.length)
  (hlt : k.send < 2 ^ 32) (hlt' : k.sbend < 2 ^ 32) {sp fuel : Nat} (s : Scan)
  (h : BytesAt b sp (encode ts)) (hsend : sp + (encode ts).length = k.send)
  (hfuel : ts.length < fuel) : walk b k fuel (s.at sp) = scan s ps := by
  -- the induction is on the tokens, so that a turn for FDT_NOP changes nothing
  induction hflat generalizing sp fuel s with
  | nil =>
    obtain ⟨fuel, rfl⟩ := Nat.exists_eq_add_of_lt hfuel
    exact walk_done _ hsend.le (turn_end h)
  | nop _ ih =>
    obtain ⟨fuel, rfl, hfuel, hsp, -, htoken, hrest, hsend⟩ := encode_cons h hsend hfuel
    rw [walk_next _ hsp (turn_nop htoken)]
    exact ih hnul s hrest hsend hfuel
  | beginNode name _ ih =>
    obtain ⟨hname, hnul⟩ := forall_mem_cons.mp hnul
    obtain ⟨fuel, rfl, hfuel, hsp, hend, htoken, hrest, hsend⟩ := encode_cons h hsend hfuel
    rw [walk_next _ hsp (turn_beginNode hname htoken hend hlt)]
    exact ih hnul (s.enter name) hrest hsend hfuel
  | endNode _ ih =>
    obtain ⟨-, hnul⟩ := forall_mem_cons.mp hnul
    obtain ⟨fuel, rfl, hfuel, hsp, -, htoken, hrest, hsend⟩ := encode_cons h hsend hfuel
    rw [walk_next _ hsp (turn_endNode htoken)]
    exact ih hnul s.leave hrest hsend hfuel
  | @prop ps ts p off hstring _ ih =>
    obtain ⟨hname, hnul⟩ := forall_mem_cons.mp hnul
    obtain ⟨fuel, rfl, hfuel, hsp, hend, htoken, hrest, hsend⟩ := encode_cons h hsend hfuel
    have hturn := turn_prop (s := s) hname hstrings hsbend hstring htoken hend hlt hlt'
    rw [scan]
    by_cases hreg : (s.memNode && p.name == regName) = true
    · rw [if_pos hreg] at hturn ⊢
      exact walk_done _ hsp hturn
    rw [if_neg hreg] at hturn ⊢
    rw [walk_next _ hsp hturn]
    exact ih hnul (s.note p) hrest hsend hfuel

mutual

lemma nulFree_pieces (t : Tree) (hwf : t.WellFormed) : ∀ p ∈ pieces t, p.NulFree := by
  obtain ⟨name, props, children⟩ := t
  obtain ⟨hname, hprops, -, hchildren⟩ := hwf
  intro p hp
  simp only [pieces, mem_cons, mem_append, mem_map, not_mem_nil,
    or_false] at hp
  rcases hp with rfl | ⟨q, hq, rfl⟩ | hp | rfl
  · exact hname
  · exact hprops q hq
  · exact nulFree_piecesAll children hchildren p hp
  · trivial

lemma nulFree_piecesAll (ts : List Tree) (hwf : AllWellFormed ts) :
  ∀ p ∈ piecesAll ts, p.NulFree := by
  match ts with
  | [] => exact fun p hp => nomatch hp
  | t :: ts =>
    intro p hp
    rcases mem_append.mp hp with hp | hp
    · exact nulFree_pieces t hwf.1 p hp
    · exact nulFree_piecesAll ts hwf.2 p hp

end
end

/-- On a blob that serialises a tree, `dtb_memory` returns the memory of the tree. -/
theorem dtb_memory_decodes {size : Nat} {t : Tree} {tokens : List Token} {strings : List UInt8}
  {structOff stringsOff : Nat} (h : Serialises b size t tokens strings structOff stringsOff) :
  dtbMemory b size = memoryOf t := by
  have hlen := length_encode tokens
  have hstruct := h.dtStruct_le
  have hstrings := h.dtStrings_le
  have hsize := h.size_lt
  have hstructOff := rd32_of_bytesAt (by omega) h.offDtStruct
  have hstringsOff := rd32_of_bytesAt (by omega) h.offDtStrings
  have hstringsSize := rd32_of_bytesAt (by omega) h.sizeDtStrings
  have hstructSize := rd32_of_bytesAt (by omega) h.sizeDtStruct
  rw [dtbMemory, hstructOff, hstringsOff, hstringsSize, hstructSize, if_neg (by omega),
    ← scan_pieces t h.wellFormed]
  exact walk_eq_scan h.flat (nulFree_pieces t h.wellFormed) h.dtStrings rfl (by dsimp only; omega)
    (by dsimp only; omega) ⟨0, false, 2, 1⟩ h.dtStruct rfl (by omega)

def bareTree : Tree :=
  .node [] [] [.node memoryName [⟨regName,
    beBytes 0 ++ beBytes 0x40000000 ++ beBytes 0x8000000⟩] []]

def bareTokens : List Token :=
  [.beginNode [], .nop, .beginNode memoryName,
    .prop 0 (beBytes 0 ++ beBytes 0x40000000 ++ beBytes 0x8000000), .endNode, .endNode]

def bareBlob (i : Nat) : UInt8 :=
  (List.replicate 8 0 ++ beBytes 40 ++ beBytes 100 ++ List.replicate 16 0 ++ beBytes 4 ++
    beBytes 60 ++ encode bareTokens ++ (regName ++ [0])).getD i 0

lemma bareBlob_serialises :
  Serialises bareBlob 104 bareTree bareTokens (regName ++ [0]) 40 100 where
  wellFormed := by
    refine ⟨by decide, fun _ h => (nomatch h), nodup_nil,
      ⟨by decide, ?_, by decide, trivial⟩, trivial⟩
    intro p hp
    obtain rfl := mem_singleton.mp hp
    decide
  flat := .beginNode [] (.nop (.beginNode memoryName (.prop ⟨[], [], rfl, rfl⟩ (.endNode
    (.endNode .nil)))))
  size_lt := by decide
  offDtStruct := by decide +kernel
  offDtStrings := by decide +kernel
  sizeDtStrings := by decide +kernel
  sizeDtStruct := by decide +kernel
  dtStruct := by decide +kernel
  dtStruct_le := by decide +kernel
  dtStrings := by decide +kernel
  dtStrings_le := by decide +kernel

theorem dtb_memory_decodes_bare : dtbMemory bareBlob 104 = some (0x40000000, 0x8000000) :=
  (dtb_memory_decodes bareBlob_serialises).trans (by decide +kernel)

end Aeos.Dtb
