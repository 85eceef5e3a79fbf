/-
# The virtio block driver's queue

`vblk_init` and `submit` of `boot/aarch64/virtio.c`, as far as they choose and write
indices of the queue.
-/

import Aeos.Lib.Bytes

namespace Aeos.Blk

open Lib List

structure Desc where
  addr : Nat
  len : Nat
  flags : Nat
  next : Nat
  deriving DecidableEq

def dNext : Nat := 1
def dWrite : Nat := 2

inductive ReqType
  | tIn
  | tOut
  deriving DecidableEq

structure Vblk where
  ready : Bool
  qnum : Nat
  desc : Nat → Desc
  ring : Nat → Nat
  availIdx : Nat
  hdr : Nat
  st : Nat
  nextDesc : Nat
  nextSlot : Nat
  pubIdx : Nat

/-- `vblk_init`, when the device reports a queue of at most `maxq` and nothing else goes wrong. -/
def vblkInit (maxq hdr st : Nat) : Vblk where
  ready := maxq != 0
  qnum := if maxq < 120 then maxq else 120
  desc _ := ⟨0, 0, 0, 0⟩
  ring _ := 0
  availIdx := 0
  hdr := hdr
  st := st
  nextDesc := 0
  nextSlot := 0
  pubIdx := 0

structure Request where
  type : ReqType
  buf : Nat
  bytes : Nat

/-- The indices that one request uses: its three descriptors, and the slot of the avail ring it is
published in. -/
structure Chain where
  head : Nat
  second : Nat
  third : Nat
  slot : Nat
  deriving DecidableEq

def wrDesc (v : Vblk) (i : Nat) (d : Desc) : Vblk :=
  { v with desc := fun j => if j = i then d else v.desc j }

def submit (v : Vblk) (r : Request) : Vblk × Option Chain :=
  if !v.ready || r.bytes == 0 then (v, none)
  else
    let mask := u16 (v.qnum - 1)
    let head := v.nextDesc
    let second := (head + 1) &&& mask
    let third := (head + 2) &&& mask
    let v := { v with nextDesc := u16 (v.nextDesc + 3) }
    let v := wrDesc v head ⟨v.hdr, 16, dNext, u16 second⟩
    let v := wrDesc v second
      ⟨r.buf, r.bytes, (if r.type = .tIn then dWrite else 0) ||| dNext, u16 third⟩
    let v := wrDesc v third ⟨v.st, 1, dWrite, 0⟩
    let slot := v.nextSlot
    let v := { v with
      nextSlot := u16 ((v.nextSlot + 1) % v.qnum)
      ring := fun j => if j = slot then head else v.ring j }
    let v := { v with pubIdx := u16 (v.pubIdx + 1), availIdx := u16 (v.pubIdx + 1) }
    (v, some ⟨head, second, third, slot⟩)

/-- The chains that a sequence of calls submits. -/
def chains (v : Vblk) : List Request → List Chain
  | [] => []
  | r :: rs => (submit v r).2.toList ++ chains (submit v r).1 rs

def chainAt (qnum i : Nat) : Chain where
  head := u16 (3 * i)
  second := (u16 (3 * i) + 1) &&& u16 (qnum - 1)
  third := (u16 (3 * i) + 2) &&& u16 (qnum - 1)
  slot := i % qnum

structure After (q i : Nat) (v : Vblk) : Prop where
  ready : v.ready = true
  qnum : v.qnum = q
  nextDesc : v.nextDesc = u16 (3 * i)
  nextSlot : v.nextSlot = i % q
  pubIdx : v.pubIdx = u16 i

variable {v : Vblk}

lemma submit_empty {r : Request} (hbytes : r.bytes = 0) : submit v r = (v, none) := by
  rw [submit, hbytes, beq_self_eq_true, Bool.or_true, if_pos rfl]

lemma submit_chain {qnum i : Nat} {r : Request} (hpos : 0 < qnum) (hle : qnum ≤ 120)
  (h : After qnum i v) (hbytes : r.bytes ≠ 0) :
  (submit v r).2 = some (chainAt qnum i) ∧ After qnum (i + 1) (submit v r).1 := by
  have hguard : ¬ (!v.ready || r.bytes == 0) = true := by simp [h.ready, hbytes]
  rw [submit, if_neg hguard]
  have hslot := Nat.mod_add_mod i qnum 1
  have hlt := Nat.mod_lt (i + 1) hpos
  constructor
  · simp only [chainAt, wrDesc, h.qnum, h.nextDesc, h.nextSlot]
  constructor
  · exact h.ready
  · exact h.qnum
  · simp only [wrDesc, h.nextDesc, u16]
    omega
  · simp only [wrDesc, h.nextSlot, h.qnum, hslot, u16]
    omega
  simp only [wrDesc, h.pubIdx, u16]
  omega

def accepted (rs : List Request) : Nat := rs.countP fun r => r.bytes != 0

lemma chains_eq {qnum : Nat} (hpos : 0 < qnum) (hle : qnum ≤ 120) {i : Nat}
  (h : After qnum i v) (rs : List Request) :
  chains v rs = (List.range' i (accepted rs)).map (chainAt qnum) := by
  induction rs generalizing i v with
  | nil => rfl
  | cons r rs ih =>
    by_cases hbytes : r.bytes = 0
    · rw [chains, submit_empty hbytes, accepted, countP_cons_of_neg (by simp [hbytes])]
      exact ih h
    obtain ⟨hchain, hafter⟩ := submit_chain hpos hle h hbytes
    rw [chains, hchain, accepted, countP_cons_of_pos (by simp [hbytes]),
      range'_succ, map_cons, ih hafter]
    rfl

lemma chains_of_not_ready (hready : v.ready = false) (rs : List Request) : chains v rs = [] := by
  induction rs with
  | nil => rfl
  | cons r rs ih =>
    have hsubmit : submit v r = (v, none) := by
      rw [submit, hready, Bool.not_false, Bool.true_or, if_pos rfl]
    rw [chains, hsubmit]
    exact ih

lemma after_vblkInit {maxq : Nat} (hmaxq : maxq ≠ 0) (hdr st : Nat) :
  After (vblkInit maxq hdr st).qnum 0 (vblkInit maxq hdr st) where
  ready := by simp [vblkInit, hmaxq]
  qnum := rfl
  nextDesc := rfl
  nextSlot := (Nat.zero_mod _).symm
  pubIdx := rfl

/-- The chain of request number `i` is in a queue of `q` descriptors and in the slot where the
device looks for it. -/
structure InQueue (q i : Nat) (c : Chain) : Prop where
  head_lt : c.head < q
  second_lt : c.second < q
  third_lt : c.third < q
  head_ne_second : c.head ≠ c.second
  head_ne_third : c.head ≠ c.third
  second_ne_third : c.second ≠ c.third
  slot : c.slot = i % 2 ^ 16 % q

section
variable {q : Nat} (hpos : 0 < q) (hle : q ≤ 120)

lemma and_mask_mod_four (x : Nat) {mask : Nat} (hmask : mask % 4 = 3) :
  (x &&& mask) % 4 = x % 4 := by
  have hmod := Nat.and_mod_two_pow (a := x) (b := mask) (n := 2)
  rw [show (2 : Nat) ^ 2 = 4 from rfl, hmask, Nat.and_two_pow_sub_one_eq_mod _ 2,
    show (2 : Nat) ^ 2 = 4 from rfl, Nat.mod_mod] at hmod
  exact hmod

include hpos hle

lemma and_mask_lt (x : Nat) : x &&& u16 (q - 1) < q := by
  have hmask : u16 (q - 1) = q - 1 := Nat.mod_eq_of_lt (by omega)
  have hand : x &&& u16 (q - 1) ≤ u16 (q - 1) := Nat.and_le_right
  omega

lemma inQueue_chainAt (hdvd : 4 ∣ q) {i : Nat} (hi : 3 * i < q) : InQueue q i (chainAt q i) := by
  have hmask : u16 (q - 1) % 4 = 3 := by
    unfold u16
    omega
  have hhead : u16 (3 * i) = 3 * i := Nat.mod_eq_of_lt (by omega)
  -- the three indices differ in their two lowest bits
  have hsecond := and_mask_mod_four (u16 (3 * i) + 1) hmask
  have hthird := and_mask_mod_four (u16 (3 * i) + 2) hmask
  constructor
  · exact hhead.trans_lt hi
  · exact and_mask_lt hpos hle _
  · exact and_mask_lt hpos hle _
  · intro heq
    simp only [chainAt] at heq
    omega
  · intro heq
    simp only [chainAt] at heq
    omega
  · intro heq
    simp only [chainAt] at heq
    omega
  show i % q = i % 2 ^ 16 % q
  rw [Nat.mod_eq_of_lt (show i < 2 ^ 16 by omega)]

lemma dvd_of_inQueue (h : InQueue q 0 (chainAt q 0)) : 4 ∣ q := by
  have hsecond := h.head_ne_second
  have hthird := h.head_ne_third
  have hmask : u16 (q - 1) = q - 1 := Nat.mod_eq_of_lt (by omega)
  simp only [chainAt, hmask] at hsecond hthird
  have hone : ∀ m < 120, 0 ≠ 1 &&& m → 0 ≠ 2 &&& m → m % 4 = 3 := by decide
  have hlow := hone (q - 1) (by omega) hsecond hthird
  omega

lemma lt_of_inQueue {k : Nat} (h : ∀ i < k, InQueue q i (chainAt q i)) : 3 * (k - 1) < q := by
  by_contra hlast
  -- the first head past the end
  have hhead := (h ((q + 2) / 3) (by omega)).head_lt
  simp only [chainAt, u16] at hhead
  omega

end

/-- The driver stays in its queue exactly as long as the size is a multiple of four and
the descriptors have not been used up once. -/
theorem submit_in_queue_iff (maxq hdr st : Nat) (rs : List Request) :
  (∀ i c, (chains (vblkInit maxq hdr st) rs)[i]? = some c →
    InQueue (vblkInit maxq hdr st).qnum i c) ↔
    (chains (vblkInit maxq hdr st) rs) = [] ∨
      4 ∣ (vblkInit maxq hdr st).qnum ∧
        3 * ((chains (vblkInit maxq hdr st) rs).length - 1) < (vblkInit maxq hdr st).qnum := by
  by_cases hmaxq : maxq = 0
  · have hnone : chains (vblkInit maxq hdr st) rs = [] :=
      chains_of_not_ready (by simp [vblkInit, hmaxq]) rs
    simp [hnone]
  have hpos : 0 < (vblkInit maxq hdr st).qnum := by
    simp only [vblkInit]
    split <;> omega
  have hle : (vblkInit maxq hdr st).qnum ≤ 120 := by
    simp only [vblkInit]
    split <;> omega
  rw [chains_eq hpos hle (after_vblkInit hmaxq hdr st)]
  generalize (vblkInit maxq hdr st).qnum = q at hpos hle
  have hget : ∀ i < accepted rs,
      ((List.range' 0 (accepted rs)).map (chainAt q))[i]? = some (chainAt q i) := by
    intro i hi
    rw [List.getElem?_map, List.getElem?_range' hi, Option.map_some, Nat.one_mul, Nat.zero_add]
  rw [length_map, length_range', map_eq_nil_iff, range'_eq_nil_iff]
  constructor
  · intro h
    have hall : ∀ i < accepted rs, InQueue q i (chainAt q i) := fun i hi => h i _ (hget i hi)
    by_cases hzero : accepted rs = 0
    · exact .inl hzero
    exact .inr ⟨dvd_of_inQueue hpos hle (hall 0 (by omega)),
      lt_of_inQueue hpos hle hall⟩
  intro h i c hc
  have hi : i < accepted rs := by
    have hlt := (List.getElem?_eq_some_iff.mp hc).1
    rwa [length_map, length_range'] at hlt
  rw [hget i hi, Option.some.injEq] at hc
  subst hc
  obtain hzero | ⟨hdvd, hlast⟩ := h
  · omega
  · exact inQueue_chainAt hpos hle hdvd (by omega)

/-- With the largest queue, the forty-first request writes and publishes descriptor 120. -/
theorem forty_first_request_outside : (vblkInit 1024 0 0).qnum = 120 ∧
    (chains (vblkInit 1024 0 0) (List.replicate 41 ⟨.tIn, 0, 512⟩))[40]? =
      some ⟨120, 113, 114, 40⟩ := by
  decide +kernel

end Aeos.Blk
