/-
# Looking for a UART

`dtb_find_uart` of `boot/aarch64/loader.c`, with every byte it reads logged.
-/

import Aeos.Dtb.Reading

namespace Aeos.Dtb.Reading.Uart

open Lib Lib.Reads

/-! ## The walker -/

def serialName : List UInt8 := [115, 101, 114, 105, 97, 108, 64]

def uartName : List UInt8 := [117, 97, 114, 116, 64]

def pl011Name : List UInt8 := [112, 108, 48, 49, 49, 64]

def ns16550Name : List UInt8 := [110, 115, 49, 54, 53, 53, 48]

structure Walk where
  sp : Nat
  depth : Nat
  candidate : Bool
  found : Nat
  addrCells : Nat

def startsWith (name nlen : Nat) (literal : List UInt8) : Prog Bool :=
  both (pure (decide (literal.length ≤ nlen))) (starts name literal)

def isUart (name nlen : Nat) : Prog Bool :=
  either (startsWith name nlen serialName)
    (either (startsWith name nlen uartName)
      (either (startsWith name nlen pl011Name)
        (both (startsWith name nlen ns16550Name)
          (either (pure (nlen == 7)) (do
            let c ← read (name + 7)
            pure (c == 64))))))

def beginNode (k : Blocks) (w : Walk) : Prog (Walk ⊕ Nat) := do
  let nlen ← lstrlen w.sp (k.send - w.sp)
  let sp := w.sp + u32 (nlen + 1 + 3) / 4 * 4
  if sp > k.send then pure (.inr 0)
  else do
    let candidate ← both (pure (w.depth == 1)) (isUart w.sp nlen)
    pure (.inl { w with sp := sp, depth := w.depth + 1, candidate := candidate })

def readReg (w : Walk) (val : Nat) : Prog (Walk ⊕ Nat) :=
  if w.addrCells < 1 ∨ w.addrCells > 2 then pure (.inr 0)
  else do
    let base ← readCells val w.addrCells
    pure (.inl { w with found := base })

def namedProperty (w : Walk) (pname val len : Nat) : Prog (Walk ⊕ Nat) := do
  let isCells ← both (pure (w.depth == 1 && !w.candidate && len == 4))
    (named pname addressCellsName)
  if isCells then do
    let cells ← rd32 val
    pure (.inl { w with addrCells := cells })
  else do
    let isReg ← both (pure (w.candidate && w.found == 0)) (named pname regName)
    if isReg then readReg w val else pure (.inl w)

def withName (w : Walk) (val len : Nat) : Option Nat → Prog (Walk ⊕ Nat)
  | none => pure (.inl w)
  | some pname => namedProperty w pname val len

def property (k : Blocks) (w : Walk) : Prog (Walk ⊕ Nat) :=
  if w.sp + 8 > k.send then pure (.inr 0)
  else do
    let len ← rd32 w.sp
    let nameoff ← rd32 (w.sp + 4)
    let val := w.sp + 8
    let sp := val + u32 (len + 3) / 4 * 4
    if val + len > k.send ∨ sp > k.send then pure (.inr 0)
    else do
      let pname ← fdtString k.sb k.sbend nameoff
      withName { w with sp := sp } val len pname

def token (k : Blocks) (tok : Nat) (w : Walk) : Prog (Walk ⊕ Nat) :=
  if tok = fdtEnd then pure (.inr w.found)
  else if tok = fdtNop then pure (.inl w)
  else if tok = fdtBeginNode then beginNode k w
  else if tok = fdtEndNode then pure (.inl { w with depth := w.depth - 1, candidate := false })
  else if tok = fdtProp then property k w
  else pure (.inr 0)

def turn (k : Blocks) (w : Walk) : Prog (Walk ⊕ Nat) :=
  if w.sp + 4 ≤ k.send then do
    let tok ← rd32 w.sp
    token k tok { w with sp := w.sp + 4 }
  else pure (.inr w.found)

def start (structOff : Nat) : Walk := ⟨structOff, 0, false, 0, 2⟩

/-- The checks of `dtb_find_uart` and its loop; what the string block's size is, is not checked.
-/
def searchUart (size structOff stringsOff structSize : Nat) : Prog (Option Nat) :=
  if structSize = 0 ∨ structOff > size ∨ stringsOff > size ∨ structSize > size - structOff then
    pure (some 0)
  else do
    let stringsSize ← rd32 32
    loop (turn ⟨structOff + structSize, stringsOff, stringsOff + stringsSize⟩) (structSize + 1)
      (start structOff)

def dtbFindUart (size : Nat) : Prog (Option Nat) := do
  let structOff ← rd32 8
  let stringsOff ← rd32 12
  let structSize ← rd32 36
  searchUart size structOff stringsOff structSize

section
variable {b : Nat → UInt8} {k : Blocks}

lemma beginNode_advances {w w' : Walk} (h : (beginNode k w).value b = .inl w') : w.sp ≤ w'.sp := by
  simp only [beginNode, value_bind, value_ite] at h
  split at h
  · cases h
  cases h
  exact Nat.le_add_right _ _

lemma namedProperty_sp {w w' : Walk} {pname val len : Nat}
  (h : (namedProperty w pname val len).value b = .inl w') : w'.sp = w.sp := by
  simp only [namedProperty, readReg, value_bind, value_ite] at h
  split at h
  · cases h
    rfl
  split at h
  · split at h
    · cases h
    cases h
    rfl
  cases h
  rfl

lemma property_advances {w w' : Walk} (h : (property k w).value b = .inl w') : w.sp ≤ w'.sp := by
  rw [property] at h
  by_cases hroom : w.sp + 8 > k.send
  · rw [if_pos hroom] at h
    cases h
  rw [if_neg hroom, value_bind, value_bind] at h
  rw [value_ite] at h
  split at h
  · cases h
  rw [value_bind] at h
  cases hfound : (fdtString k.sb k.sbend ((rd32 (w.sp + 4)).value b)).value b with
  | none =>
    rw [hfound] at h
    cases h
    show w.sp ≤ w.sp + 8 + _
    omega
  | some pname =>
    rw [hfound] at h
    rw [namedProperty_sp h]
    show w.sp ≤ w.sp + 8 + _
    omega

lemma next_measure (w w' : Walk) (hnext : Next (turn k) b w w') :
  k.send - w'.sp < k.send - w.sp := by
  have hadvances : w.sp + 4 ≤ k.send ∧ w.sp + 4 ≤ w'.sp := by
    unfold Next turn at hnext
    split at hnext
    · next hroom =>
        refine ⟨hroom, ?_⟩
        rw [value_bind] at hnext
        unfold token at hnext
        split at hnext
        · cases hnext
        split at hnext
        · cases hnext
          exact Nat.le_refl _
        split at hnext
        · exact beginNode_advances hnext
        split at hnext
        · cases hnext
          exact Nat.le_refl _
        split at hnext
        · exact property_advances hnext
        · cases hnext
    · cases hnext
  omega

end

/-! ## What the walk reads -/

section
variable {b : Nat → UInt8} {size : Nat} {k : Blocks}

lemma inside_startsWith {name nlen : Nat} (hend : name + nlen ≤ size) (literal : List UInt8) :
  Inside (· < size) (startsWith name nlen literal) b := by
  rw [startsWith, inside_both]
  refine ⟨inside_pure _, fun hlong => ?_⟩
  have hlen := of_decide_eq_true hlong
  exact inside_starts fun j hj => by omega

lemma inside_isUart {name nlen : Nat} (hend : name + nlen ≤ size) :
  Inside (· < size) (isUart name nlen) b := by
  have hstarts := fun literal => inside_startsWith (b := b) hend literal
  rw [isUart, inside_either]
  refine ⟨hstarts serialName, fun _ => ?_⟩
  rw [inside_either]
  refine ⟨hstarts uartName, fun _ => ?_⟩
  rw [inside_either]
  refine ⟨hstarts pl011Name, fun _ => ?_⟩
  rw [inside_both]
  refine ⟨hstarts ns16550Name, fun hname => ?_⟩
  rw [inside_either]
  refine ⟨inside_pure _, fun hmore => ?_⟩
  rw [inside_bind, inside_read]
  refine ⟨?_, inside_pure _⟩
  -- The name goes on behind its seventh byte.
  have hlong : 7 ≤ nlen := by
    rw [startsWith, value_both, Bool.and_eq_true] at hname
    exact of_decide_eq_true hname.1
  have hne : nlen ≠ 7 := by simpa using hmore
  omega

lemma inside_beginNode (hsend : k.send ≤ size) (w : Walk) :
  Inside (· < size) (beginNode k w) b := by
  obtain ⟨hle, -, -⟩ := lstrlen_spec (b := b) w.sp (k.send - w.sp)
  rw [beginNode, inside_bind, value_lstrlen]
  refine ⟨inside_lstrlen_below hsend, ?_⟩
  rw [inside_ite]
  refine ⟨fun _ => inside_pure _, fun hroom => ?_⟩
  rw [inside_bind, inside_both]
  refine ⟨⟨inside_pure _, fun _ => inside_isUart ?_⟩, inside_pure _⟩
  omega

variable (b size k)

def NameInside (off : Nat) : Prop :=
  ∀ j < k.sbend - (k.sb + off), (∀ i < j, b (k.sb + off + i) ≠ 0) → k.sb + off + j < size

/-- A property with this name offset is the `reg` that is decoded. -/
structure DecodesReg (w : Walk) (off : Nat) : Prop where
  candidate : w.candidate = true
  first : w.found = 0
  name : ∃ pname, Dtb.fdtString b k.sb k.sbend off = some pname ∧
    Dtb.lstrcmp b pname regName = 0
  cells : 1 ≤ w.addrCells ∧ w.addrCells ≤ 2

structure AtProperty (w : Walk) : Prop where
  token : Dtb.rd32 b w.sp = fdtProp
  room : w.sp + 12 ≤ k.send
  value : w.sp + 12 + Dtb.rd32 b (w.sp + 4) ≤ k.send
  padded : w.sp + 12 + u32 (Dtb.rd32 b (w.sp + 4) + 3) / 4 * 4 ≤ k.send

/-- The property at the cursor has a name that ends inside, and a value to decode inside. -/
structure PropertyInside (w : Walk) : Prop where
  name : NameInside b size k (Dtb.rd32 b (w.sp + 8))
  reg : DecodesReg b k w (Dtb.rd32 b (w.sp + 8)) → w.sp + 12 + 4 * w.addrCells ≤ size

variable {b size k}

lemma inside_readReg (w : Walk) (val : Nat) : Inside (· < size) (readReg w val) b ↔
    (1 ≤ w.addrCells ∧ w.addrCells ≤ 2 → val + 4 * w.addrCells ≤ size) := by
  rw [readReg, inside_ite, inside_bind, inside_readCells]
  constructor
  · rintro ⟨-, hread⟩ hcells
    have hlast := (hread (by omega)).1 (4 * w.addrCells - 1) (by omega)
    omega
  intro hroom
  refine ⟨fun _ => inside_pure _, fun hcells => ⟨fun j hj => ?_, inside_pure _⟩⟩
  omega

lemma inside_namedProperty {off pname val len : Nat} (w : Walk)
  (hfound : Dtb.fdtString b k.sb k.sbend off = some pname)
  (hstring : Inside (· < size) (fdtString k.sb k.sbend off) b) (hend : val + len ≤ size) :
  Inside (· < size) (namedProperty w pname val len) b ↔
    (DecodesReg b k w off → val + 4 * w.addrCells ≤ size) := by
  have hnamed := fun literal => inside_named_of_found hfound hstring literal
  rw [namedProperty, inside_bind, inside_both, inside_ite, inside_bind, inside_bind, inside_both,
    inside_ite, inside_readReg]
  constructor
  · rintro ⟨-, -, hrest⟩ ⟨hcandidate, hfirst, ⟨pname', hname, hreg⟩, hcells⟩
    obtain rfl : pname = pname' := Option.some.inj (hfound.symm.trans hname)
    refine (hrest ?_).2.1 ?_ hcells
    · rw [value_both, value_pure, hcandidate]
      simp
    rw [value_both, value_pure, value_named, hcandidate, hfirst, hreg]
    rfl
  intro hroom
  refine ⟨⟨inside_pure _, fun _ => hnamed addressCellsName⟩, fun hcells => ⟨?_, inside_pure _⟩,
    fun _ => ⟨⟨inside_pure _, fun _ => hnamed regName⟩, fun hreg hcells => ?_,
      fun _ => inside_pure _⟩⟩
  · have hlen : len = 4 := by
      rw [value_both, value_pure, Bool.and_eq_true, Bool.and_eq_true, beq_iff_eq] at hcells
      exact hcells.1.2
    exact inside_rd32_below (by omega)
  rw [value_both, value_pure, value_named, Bool.and_eq_true, Bool.and_eq_true, beq_iff_eq,
    beq_iff_eq] at hreg
  exact hroom ⟨hreg.1.1, hreg.1.2, ⟨pname, hfound, hreg.2⟩, hcells⟩

variable {w : Walk}

lemma decodesReg_congr {w' : Walk} {off : Nat} (hcandidate : w'.candidate = w.candidate)
  (hfound : w'.found = w.found) (hcells : w'.addrCells = w.addrCells) :
  DecodesReg b k w' off ↔ DecodesReg b k w off := by
  constructor
  · rintro ⟨h₁, h₂, h₃, h₄⟩
    exact ⟨hcandidate ▸ h₁, hfound ▸ h₂, h₃, hcells ▸ h₄⟩
  rintro ⟨h₁, h₂, h₃, h₄⟩
  exact ⟨hcandidate ▸ h₁, hfound ▸ h₂, h₃, hcells ▸ h₄⟩

lemma inside_fitting {val off len : Nat} (hend : val + len ≤ size) (sp : Nat) :
  Inside (· < size) (fdtString k.sb k.sbend off >>= withName { w with sp := sp } val len) b ↔
    NameInside b size k off ∧ (DecodesReg b k w off → val + 4 * w.addrCells ≤ size) := by
  rw [inside_bind, value_fdtString]
  have hname : Inside (· < size) (fdtString k.sb k.sbend off) b ↔ NameInside b size k off :=
    inside_fdtString k.sb k.sbend off
  rw [hname]
  apply and_congr_right
  intro hinside
  cases hfound : Dtb.fdtString b k.sb k.sbend off with
  | none =>
    refine iff_of_true (inside_pure _) fun hreg => ?_
    obtain ⟨pname, hsome, -⟩ := hreg.name
    rw [hfound] at hsome
    cases hsome
  | some pname =>
    rw [withName, inside_namedProperty _ hfound (hname.mpr hinside) hend]
    exact imp_congr (decodesReg_congr rfl rfl rfl) Iff.rfl

lemma inside_property (hsend : k.send ≤ size) (htoken : Dtb.rd32 b w.sp = fdtProp) :
  Inside (· < size) (property k { w with sp := w.sp + 4 }) b ↔
    (AtProperty b k w → PropertyInside b size k w) := by
  rw [property]
  dsimp only
  by_cases hroom : w.sp + 4 + 8 > k.send
  · rw [if_pos hroom]
    refine iff_of_true (inside_pure _) fun hat => ?_
    have := hat.room
    omega
  have hlen : Inside (· < size) (rd32 (w.sp + 4)) b := inside_rd32_below (by omega)
  have hoff : Inside (· < size) (rd32 (w.sp + 4 + 4)) b := inside_rd32_below (by omega)
  rw [if_neg hroom, inside_bind, inside_bind, value_rd32, value_rd32, and_iff_right hlen,
    and_iff_right hoff]
  by_cases hvalue : w.sp + 4 + 8 + Dtb.rd32 b (w.sp + 4) > k.send ∨
      w.sp + 4 + 8 + u32 (Dtb.rd32 b (w.sp + 4) + 3) / 4 * 4 > k.send
  · rw [if_pos hvalue]
    refine iff_of_true (inside_pure _) fun hat => ?_
    have := hat.value
    have := hat.padded
    omega
  rw [if_neg hvalue, inside_fitting (by omega)]
  have hat : AtProperty b k w := ⟨htoken, by omega, by omega, by omega⟩
  constructor
  · rintro ⟨hname, hreg⟩ _
    exact ⟨hname, hreg⟩
  intro h
  exact ⟨(h hat).name, (h hat).reg⟩

lemma inside_turn (hsend : k.send ≤ size) (w : Walk) :
  Inside (· < size) (turn k w) b ↔ (AtProperty b k w → PropertyInside b size k w) := by
  rw [turn, inside_ite]
  by_cases hroom : w.sp + 4 ≤ k.send
  swap
  · refine iff_of_true ⟨fun h => absurd h hroom, fun _ => inside_pure _⟩ fun hat => ?_
    have := hat.room
    omega
  rw [inside_bind, value_rd32]
  have htok : Inside (· < size) (rd32 w.sp) b := inside_rd32_below (by omega)
  by_cases htoken : Dtb.rd32 b w.sp = fdtProp
  · have hprop : token k fdtProp { w with sp := w.sp + 4 } = property k { w with sp := w.sp + 4 } :=
      rfl
    rw [htoken, hprop, inside_property hsend htoken]
    exact ⟨fun h => (h.1 hroom).2, fun h => ⟨fun _ => ⟨htok, h⟩, fun hno => absurd hroom hno⟩⟩
  refine iff_of_true ⟨fun _ => ⟨htok, ?_⟩, fun hno => absurd hroom hno⟩
    fun hat => absurd hat.token htoken
  unfold token
  split
  · exact inside_pure _
  split
  · exact inside_pure _
  split
  · exact inside_beginNode hsend _
  split
  · exact inside_pure _
  · exact inside_pure _

lemma isSome_searchUart (structOff stringsOff structSize : Nat) :
  ((searchUart size structOff stringsOff structSize).value b).isSome = true := by
  rw [searchUart, value_ite]
  split
  · rfl
  rw [value_bind]
  exact loop_isSome next_measure (by dsimp only [start]; omega)

lemma inside_searchUart (hsize : 40 ≤ size) (structOff stringsOff structSize : Nat) :
  Inside (· < size) (searchUart size structOff stringsOff structSize) b ↔
    (¬ (structSize = 0 ∨ structOff > size ∨ stringsOff > size ∨ structSize > size - structOff) →
      ∀ w, Visits (turn ⟨structOff + structSize, stringsOff, stringsOff + Dtb.rd32 b 32⟩) b
          (start structOff) w →
        AtProperty b ⟨structOff + structSize, stringsOff, stringsOff + Dtb.rd32 b 32⟩ w →
          PropertyInside b size
            ⟨structOff + structSize, stringsOff, stringsOff + Dtb.rd32 b 32⟩ w) := by
  rw [searchUart, inside_ite, inside_bind, value_rd32,
    and_iff_right (show Inside (· < size) (rd32 32) b from inside_rd32_below (by omega)),
    and_iff_right fun _ => inside_pure _]
  apply imp_congr_right
  intro hstruct
  rw [inside_loop next_measure (by dsimp only [start]; omega)]
  apply forall_congr'
  intro w
  apply imp_congr_right
  intro _
  exact inside_turn (by dsimp only; omega) w

/-- The two blocks of the blob, as its header has them. -/
def blocks (b : Nat → UInt8) : Blocks :=
  ⟨Dtb.rd32 b 8 + Dtb.rd32 b 36, Dtb.rd32 b 12, Dtb.rd32 b 12 + Dtb.rd32 b 32⟩

def Accepted (b : Nat → UInt8) (size : Nat) : Prop :=
  ¬ (Dtb.rd32 b 36 = 0 ∨ Dtb.rd32 b 8 > size ∨ Dtb.rd32 b 12 > size ∨
    Dtb.rd32 b 36 > size - Dtb.rd32 b 8)

/-- The walk comes to the property at the cursor of `w`. -/
def ComesTo (b : Nat → UInt8) (size : Nat) (w : Walk) : Prop :=
  Accepted b size ∧ Visits (turn (blocks b)) b (start (Dtb.rd32 b 8)) w ∧ AtProperty b (blocks b) w

lemma inside_dtbFindUart (hsize : 40 ≤ size) : Inside (· < size) (dtbFindUart size) b ↔
    ∀ w, ComesTo b size w → PropertyInside b size (blocks b) w := by
  have hheader : ∀ p, p + 4 ≤ 40 → Inside (· < size) (rd32 p) b := fun p hp =>
    inside_rd32_below (by omega)
  rw [dtbFindUart, inside_bind, inside_bind, inside_bind, value_rd32, value_rd32, value_rd32,
    and_iff_right (hheader 8 (by decide)), and_iff_right (hheader 12 (by decide)),
    and_iff_right (hheader 36 (by decide)), inside_searchUart hsize]
  constructor
  · rintro h w ⟨haccepted, hvisits, hat⟩
    exact h haccepted w hvisits hat
  intro h haccepted w hvisits hat
  exact h w ⟨haccepted, hvisits, hat⟩

lemma propertyInside_of_room (hstrings : k.sbend ≤ size) (hstruct : k.send + 8 ≤ size)
  (hat : AtProperty b k w) : PropertyInside b size k w where
  name j hj _ := by omega
  reg hreg := by
    have := hat.room
    have := hreg.cells
    omega

/-- `dtb_find_uart` always ends. It reads nothing outside the blob exactly when every property it
comes to has a name that ends inside and, where it decodes a `reg`, the cells of the address
inside. -/
theorem find_uart_reads_inside_iff (b : Nat → UInt8) (size : Nat) (hsize : 40 ≤ size) :
  ((dtbFindUart size).value b).isSome = true ∧
    ((∀ off ∈ (dtbFindUart size).touched b, off < size) ↔
      ∀ w, ComesTo b size w → PropertyInside b size (blocks b) w) ∧
    ((blocks b).sbend ≤ size ∧ (blocks b).send + 8 ≤ size →
      ∀ off ∈ (dtbFindUart size).touched b, off < size) := by
  refine ⟨?_, inside_dtbFindUart hsize, ?_⟩
  · rw [dtbFindUart, value_bind, value_bind, value_bind]
    exact isSome_searchUart _ _ _
  rintro ⟨hstrings, hstruct⟩
  apply (inside_dtbFindUart hsize).mpr
  rintro w ⟨-, -, hat⟩
  exact propertyInside_of_room hstrings hstruct hat

/-- A UART node whose `reg` holds the given bytes. -/
def uartBlob (reg : List UInt8) (i : Nat) : UInt8 :=
  (List.replicate 8 0 ++ beBytes 40 ++ beBytes 16 ++ (regName ++ [0]) ++ List.replicate 12 0 ++
    beBytes 4 ++ beBytes (32 + reg.length) ++
    (beBytes fdtBeginNode ++ List.replicate 4 0 ++ beBytes fdtBeginNode ++ uartName ++ [0, 0, 0] ++
      beBytes fdtProp ++ beBytes reg.length ++ beBytes 0 ++ reg)).getD i 0

def fullReg : List UInt8 := beBytes 0 ++ beBytes 0x9000000 ++ beBytes 0 ++ beBytes 0x1000

theorem find_uart_reads_inside_full :
    (dtbFindUart 96).value (uartBlob fullReg) = some 0x9000000 ∧
    ∀ off ∈ (dtbFindUart 96).touched (uartBlob fullReg), off < 96 :=
  ⟨by decide +kernel,
    (find_uart_reads_inside_iff (uartBlob fullReg) 96 (by decide)).2.2 (by decide +kernel)⟩

/-- One property, whose name is at the start of a string block that begins where the blob ends. -/
def strayName (i : Nat) : UInt8 :=
  (List.replicate 8 0 ++ beBytes 40 ++ beBytes 52 ++ List.replicate 16 0 ++ beBytes 1 ++
    beBytes 12 ++ (beBytes fdtProp ++ beBytes 0 ++ beBytes 0)).getD i 0

def emptyReg : Nat → UInt8 := uartBlob []

/-- Two blobs behind whose ends `dtb_find_uart` reads: the first for want of a check of the
string block, the second for want of a check of the length of `reg`. -/
theorem find_uart_reads_outside : (40 ≤ 52 ∧ 52 ∈ (dtbFindUart 52).touched strayName) ∧
    (40 ≤ 72 ∧ 79 ∈ (dtbFindUart 72).touched emptyReg) := by
  decide +kernel

end
end Aeos.Dtb.Reading.Uart
