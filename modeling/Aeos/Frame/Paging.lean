/-
# Page-table entries of the Rust memory crate

`memory/src/page_table.rs`. Both setters have their masks the wrong way round.
-/

import Mathlib.Algebra.Group.Nat.Defs
import Mathlib.Tactic.Common

namespace Aeos.Paging

open BitVec

/-- `MappingError`, as far as `map` returns it. -/
inductive MappingError
  | alreadyMapped
  | pageTableAllocationFailed
  deriving DecidableEq

/-! ## Entries -/

namespace PageTableFlags

def all : BitVec 64 := 0x80000000000001FF

end PageTableFlags

/-- A set of flags has no bits but those of flags. -/
structure PageTableFlags where
  bits : BitVec 64
  known : bits &&& PageTableFlags.all = bits

namespace PageTableFlags

def present : PageTableFlags := ⟨1, by decide⟩

def fromBitsTruncate (bits : BitVec 64) : PageTableFlags :=
  ⟨bits &&& all, by rw [BitVec.and_assoc, BitVec.and_self]⟩

def union (f g : PageTableFlags) : PageTableFlags := fromBitsTruncate (f.bits ||| g.bits)

def contains (f g : PageTableFlags) : Bool := f.bits &&& g.bits == g.bits

end PageTableFlags

abbrev PageTableEntry := BitVec 64

def addressMask : BitVec 64 := 0x000FFFFFFFFFF000

namespace PageTableEntry

def setAddress (e : PageTableEntry) (addr : BitVec 64) : PageTableEntry :=
  (e &&& addressMask) ||| (addr &&& addressMask)

def address (e : PageTableEntry) : BitVec 64 := e &&& addressMask

def setFlags (e : PageTableEntry) (f : PageTableFlags) : PageTableEntry :=
  (e &&& 0x0000000000000FFF) ||| (f.bits &&& 0xFFFFFFFFFFFFF000)

def flags (e : PageTableEntry) : PageTableFlags := .fromBitsTruncate e

def isPresent (e : PageTableEntry) : Bool := e.flags.contains .present

end PageTableEntry

abbrev PageTable := BitVec 64 → PageTableEntry

abbrev Memory := BitVec 64 → PageTable

def index (virt : BitVec 64) (shift : Nat) : BitVec 64 := (virt >>> shift) &&& 0x1FF

def getOrCreateTable (mem : Memory) (table idx : BitVec 64) : Except MappingError (BitVec 64) :=
  if (mem table idx).isPresent then .ok (mem table idx).address
  else .error .pageTableAllocationFailed

def descend (mem : Memory) (self virt : BitVec 64) : Except MappingError (BitVec 64) := do
  let pdpt ← getOrCreateTable mem self (index virt 39)
  let pd ← getOrCreateTable mem pdpt (index virt 30)
  getOrCreateTable mem pd (index virt 21)

/-- `PageTable::map`, on the table at `self`. -/
def map (mem : Memory) (self virt phys : BitVec 64) (f : PageTableFlags) :
  Except MappingError Unit × Memory :=
  match descend mem self virt with
  | .error e => (.error e, mem)
  | .ok pt =>
    let entry := mem pt (index virt 12)
    if entry.isPresent then (.error .alreadyMapped, mem)
    else
      let entry := (entry.setAddress phys).setFlags (f.union .present)
      (.ok (), Function.update mem pt (Function.update (mem pt) (index virt 12) entry))

/-! ## The setters bit by bit -/

lemma eq_iff_bits {x y : BitVec 64} : x = y ↔ ∀ i < 64, x.getLsbD i = y.getLsbD i :=
  ⟨fun h _ _ => h ▸ rfl, eq_of_getLsbD_eq⟩

lemma addressMask_bit : ∀ i < 64, addressMask.getLsbD i = (decide (12 ≤ i) && decide (i < 52)) := by
  decide

lemma all_bit : ∀ i < 64, PageTableFlags.all.getLsbD i = (decide (i < 9) || decide (i = 63)) := by
  decide

lemma low_bit : ∀ i < 64, (0x0000000000000FFF : BitVec 64).getLsbD i = decide (i < 12) := by
  decide

lemma high_bit : ∀ i < 64, (0xFFFFFFFFFFFFF000 : BitVec 64).getLsbD i = decide (12 ≤ i) := by
  decide

variable {a : BitVec 64}

lemma and_addressMask (haligned : a.toNat % 2 ^ 12 = 0)
  (hsmall : a.toNat < 2 ^ 52) : a &&& addressMask = a := by
  refine eq_iff_bits.mpr fun i hi => ?_
  rw [getLsbD_and, addressMask_bit i hi, BitVec.getLsbD]
  by_cases hlow : i < 12
  · have hzero : (a.toNat % 2 ^ 12).testBit i = false := by rw [haligned, Nat.zero_testBit]
    rw [Nat.testBit_mod_two_pow, decide_eq_true hlow, Bool.true_and] at hzero
    rw [hzero, Bool.false_and]
  by_cases hhigh : i < 52
  · simp [hhigh, Nat.le_of_not_lt hlow]
  have hzero := Nat.testBit_lt_two_pow
      (Nat.lt_of_lt_of_le hsmall (Nat.pow_le_pow_right (by decide) (Nat.le_of_not_lt hhigh)))
  rw [hzero, Bool.false_and]

/-- The address, or the flags, are the new ones and nothing else has changed. -/
def SetsAddress (e : PageTableEntry) (a : BitVec 64) : Prop :=
  (e.setAddress a).address = a ∧ e.setAddress a &&& ~~~addressMask = e &&& ~~~addressMask

def SetsFlags (e : PageTableEntry) (f : PageTableFlags) : Prop :=
  (e.setFlags f).flags.bits = f.bits ∧
    e.setFlags f &&& ~~~PageTableFlags.all = e &&& ~~~PageTableFlags.all

variable {e : PageTableEntry}

lemma setsAddress_iff (ha : a &&& addressMask = a) :
  SetsAddress e a ↔ e &&& ~~~addressMask = 0 ∧ e &&& a = e := by
  rw [SetsAddress]
  simp only [eq_iff_bits, ← forall_and] at ha ⊢
  refine forall_congr' fun i => forall_congr' fun hi => ?_
  have hbit := ha i hi
  simp only [PageTableEntry.setAddress, PageTableEntry.address, getLsbD_and,
    getLsbD_or, getLsbD_not] at hbit ⊢
  cases e.getLsbD i <;> cases hA : a.getLsbD i <;> cases hM : addressMask.getLsbD i <;>
    simp_all

def lowFlags : BitVec 64 := 0x00000000000001FF

def middle : BitVec 64 := 0x7FFFFFFFFFFFF000

lemma lowFlags_bit : ∀ i < 64, lowFlags.getLsbD i = decide (i < 9) := by
  decide

lemma middle_bit : ∀ i < 64, middle.getLsbD i = (decide (12 ≤ i) && decide (i < 63)) := by
  decide

variable {f : PageTableFlags}

lemma setsFlags_iff : SetsFlags e f ↔ e &&& lowFlags = f.bits &&& lowFlags ∧ e &&& middle = 0 := by
  have hknown := f.known
  rw [SetsFlags]
  simp only [eq_iff_bits, ← forall_and] at hknown ⊢
  refine forall_congr' fun i => forall_congr' fun hi => ?_
  have hbit := hknown i hi
  simp only [PageTableEntry.setFlags, PageTableEntry.flags, PageTableFlags.fromBitsTruncate,
    getLsbD_and, getLsbD_or, getLsbD_not, all_bit i hi, low_bit i hi,
    high_bit i hi, lowFlags_bit i hi, middle_bit i hi] at hbit ⊢
  -- Below 9 a flag, below 12 neither, below 63 what has to be clear, and then `NO_EXECUTE`.
  rcases (by omega : i < 9 ∨ 9 ≤ i ∧ i < 12 ∨ 12 ≤ i ∧ i < 63 ∨ i = 63) with h | h | h | h <;>
    cases e.getLsbD i <;> cases hf : f.bits.getLsbD i <;> simp_all <;> omega

lemma isPresent_bit (h : e.isPresent = true) : e.getLsbD 0 = true := by
  have hbit := congrArg (BitVec.getLsbD · 0) (eq_of_beq h)
  simp only [PageTableEntry.flags, PageTableFlags.fromBitsTruncate, getLsbD_and] at hbit
  cases hzero : e.getLsbD 0
  · rw [hzero] at hbit
    exact absurd hbit (by decide)
  · rfl

/-- The entry that a successful `map` writes is present and has what it was given. -/
def MapsExactly (mem : Memory) (self virt phys : BitVec 64) (f : PageTableFlags) : Prop :=
  ∀ pt mem', descend mem self virt = .ok pt → map mem self virt phys f = (.ok (), mem') →
    let entry := mem' pt (index virt 12)
    entry.isPresent = true ∧ entry.address = phys ∧ entry.flags.bits = (f.union .present).bits

lemma not_isPresent_written (e : PageTableEntry) (a : BitVec 64) (f : PageTableFlags) :
  ((e.setAddress a).setFlags f).isPresent ≠ true := by
  intro h
  have hbit := isPresent_bit h
  have hmask := addressMask_bit 0 (by decide)
  have hhigh := high_bit 0 (by decide)
  simp only [PageTableEntry.setFlags, PageTableEntry.setAddress, getLsbD_and,
    getLsbD_or, hmask, hhigh] at hbit
  simp at hbit

lemma mapsExactly_iff {mem : Memory} {self virt phys : BitVec 64} :
  MapsExactly mem self virt phys f ↔ (map mem self virt phys f).1 ≠ .ok () := by
  constructor
  · intro h hok
    have hcall : map mem self virt phys f = (.ok (), (map mem self virt phys f).2) :=
      Prod.ext hok rfl
    unfold map at hok
    cases hpt : descend mem self virt with
    | error e =>
      rw [hpt] at hok
      cases hok
    | ok pt =>
      have hwritten := (h pt _ hpt hcall).1
      unfold map at hwritten
      rw [hpt] at hok hwritten
      dsimp only at hok hwritten
      split_ifs at hok hwritten
      dsimp only at hwritten
      rw [Function.update_self, Function.update_self] at hwritten
      exact not_isPresent_written _ _ _ hwritten
  intro h pt mem' _ hcall
  exact absurd (congrArg Prod.fst hcall) h

/-- `set_address` does what it should exactly on entries that have no bits outside the address and
none that the new address lacks, `set_flags` exactly on entries that have the low flags already
and nothing in the middle, and `map` never. -/
theorem entry_fields_apart_iff {a : BitVec 64} (haligned : a.toNat % 2 ^ 12 = 0)
  (hsmall : a.toNat < 2 ^ 52) (e : PageTableEntry) (f : PageTableFlags) (mem : Memory)
  (self virt : BitVec 64) :
  (SetsAddress e a ↔ e &&& ~~~addressMask = 0 ∧ e &&& a = e) ∧
  (SetsFlags e f ↔ e &&& lowFlags = f.bits &&& lowFlags ∧ e &&& middle = 0) ∧
  (MapsExactly mem self virt a f ↔ (map mem self virt a f).1 ≠ .ok ()) :=
  ⟨setsAddress_iff (and_addressMask haligned hsmall), setsFlags_iff, mapsExactly_iff⟩

def tables : Memory := fun table _ => if table = 0x3000 then 0 else (table + 0x1000) ||| 1

/-- The setters work on a clear entry, up to the flags of the low bits. -/
theorem entry_fields_apart_clear :
  SetsAddress 0 0x5000 ∧ ¬ SetsFlags 0 .present ∧ ¬ MapsExactly tables 0 0 0x5000 .present := by
  obtain ⟨haddress, hflags, hmap⟩ := entry_fields_apart_iff (a := 0x5000) (by decide) (by decide)
    0 .present tables 0 0
  rw [haddress, hflags, hmap]
  exact ⟨by decide, by decide, fun h => h rfl⟩

/-- A page that was mapped is not present, and a present entry that is given an address
is not present any more. -/
theorem mapped_page_not_present : (map tables 0 0 0x5000 .present).1 = .ok () ∧
  ((map tables 0 0 0x5000 .present).2 0x3000 0).isPresent = false ∧
  (1 : PageTableEntry).isPresent = true ∧
  ((1 : PageTableEntry).setAddress 0x5000).isPresent = false := by
  refine ⟨rfl, ?_, ?_, ?_⟩ <;> decide

end Aeos.Paging
