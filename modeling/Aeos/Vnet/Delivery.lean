/-
# Receiving frames

The receive side of `boot/aarch64/vnet.c`: `vq_setup`, the posting of buffers in `vnet_init`, and
`vnet_recv`, against a virtio-net device that keeps to the split-ring rules.

The device finds its descriptors in the two pages that `vq_setup` has zeroed and told it of. The
driver writes descriptors into `vn.rx.desc`, an array of its own, and only the rings into the
pages.
-/

import Aeos.Lib.Bytes
import Aeos.Lib.Machine

namespace Aeos.Vnet

open Lib List

def qn : Nat := 32

/-- The queue size that `vq_setup` settles on; `none` when the queue is too small. -/
def queueSize (maxq : Nat) : Option Nat :=
  let maxq := if maxq = 0 ∨ maxq > qn then (if qn < maxq then qn else maxq) else maxq
  if maxq < 8 then none else some maxq

/-- A receive queue that `vq_setup` has set up: its two pages, the address of `rxbuf[0]`, the
transport and the queue size. -/
structure Queue where
  region : Nat
  rxbuf : Nat
  legacy : Bool
  maxq : Nat
  size : Nat
  aligned : 4096 ∣ region
  settled : queueSize maxq = some size

namespace Queue

/-- `q->avail`. -/
def avail (q : Queue) : Nat := q.region + 16 * qn

/-- `q->used`; `sizeof(avail_t)` is 132. -/
def used (q : Queue) : Nat :=
  if q.legacy then q.region + 4096 else (q.region + 16 * qn + 132 + 3) / 4 * 4

/-- Where the device looks for available descriptors: a legacy one right behind as many
descriptors as the queue has. -/
def deviceAvail (q : Queue) : Nat :=
  if q.legacy then q.region + 16 * q.size else q.avail

/-- Where the device writes used ones: a legacy one at the next page behind the available ring. -/
def deviceUsed (q : Queue) : Nat :=
  if q.legacy then (q.deviceAvail + 2 * (3 + q.size) + 4095) / 4096 * 4096 else q.used

end Queue

/-- A `vdesc_t`. -/
structure Desc where
  addr : Nat
  len : Nat
  flags : Nat
  next : Nat
  deriving DecidableEq

def leHalf (mem : Nat → UInt8) (addr : Nat) : Nat :=
  (mem addr).toNat + 256 * (mem (addr + 1)).toNat

def storeHalf (mem : Nat → UInt8) (addr v : Nat) : Nat → UInt8 :=
  overwrite mem addr 2 (leByte v)

def storeWord (mem : Nat → UInt8) (addr v : Nat) : Nat → UInt8 :=
  overwrite mem addr 4 (leByte v)

/-! ## The driver -/

/-- `vn.rx` and the memory that driver and device share. -/
structure Rx where
  desc : Nat → Desc
  nextDesc : Nat
  pubIdx : Nat
  lastUsed : Nat
  mem : Nat → UInt8

/-- A buffer is posted: `wr_desc` fills an entry of `vn.rx.desc`, and its number goes to the
available ring. -/
def post (q : Queue) (rx : Rx) (j : Nat) : Rx :=
  let d := rx.nextDesc % qn
  let mem := storeHalf rx.mem (q.avail + 4 + 2 * (leHalf rx.mem (q.avail + 2) % qn)) d
  { rx with
    nextDesc := u16 (rx.nextDesc + 1)
    desc := Function.update rx.desc d ⟨q.rxbuf + 2048 * j, 2048, 2, 0⟩
    pubIdx := u16 (rx.pubIdx + 1)
    mem := storeHalf mem (q.avail + 2) (u16 (rx.pubIdx + 1)) }

def bytesFrom (mem : Nat → UInt8) (src len : Nat) : List UInt8 :=
  (List.range len).map fun i => mem (src + i)

/-- One turn of the loop of `vnet_recv`, with the bytes it copies to the caller. -/
def recvTurn (q : Queue) (rx : Rx) (cap : Nat) : Rx × List UInt8 :=
  let elem := q.used + 4 + 8 * (rx.lastUsed % 64)
  let id := leWord rx.mem elem
  let len := u32 (leWord rx.mem (elem + 4) + 2 ^ 32 - 12)
  let len := if len > cap then cap else len
  ({ post q rx (id % 8) with lastUsed := u16 (rx.lastUsed + 1) },
    bytesFrom rx.mem (q.rxbuf + 2048 * (id % 8)) len)

def recvLoop (q : Queue) (cap : Nat) : Nat → Rx → Rx × List UInt8
  | 0, rx => (rx, [])
  | fuel + 1, rx =>
    if rx.lastUsed = leHalf rx.mem (q.used + 2) then (rx, [])
    else if (recvTurn q rx cap).2 = [] then recvLoop q cap fuel (recvTurn q rx cap).1
    else recvTurn q rx cap

/-- Each turn takes `last_used` one step towards the index that the device has written. -/
def vnetRecv (q : Queue) (rx : Rx) (cap : Nat) : Rx × List UInt8 :=
  recvLoop q cap (u16 (leHalf rx.mem (q.used + 2) + 2 ^ 16 - rx.lastUsed)) rx

/-- `vn.rx` cleared by `vnet_init`, and the pages zeroed by `vq_setup`. -/
def vqSetup (q : Queue) (mem : Nat → UInt8) : Rx where
  desc _ := ⟨0, 0, 0, 0⟩
  nextDesc := 0
  pubIdx := 0
  lastUsed := 0
  mem := overwrite mem q.region (2 * 4096) fun _ => 0

def vnetInit (q : Queue) (mem : Nat → UInt8) : Rx :=
  (List.range 8).foldl (post q) (vqSetup q mem)

/-! ## The device -/

/-- What the device writes for one frame. -/
structure Packet where
  header : List UInt8
  frame : List UInt8
  header_length : header.length = 12
  frame_ne_nil : frame ≠ []
  deriving DecidableEq

/-- A descriptor as the device reads it. -/
def tableDesc (q : Queue) (mem : Nat → UInt8) (d : Nat) : Desc where
  addr := leWord mem (q.region + 16 * d) + 2 ^ 32 * leWord mem (q.region + 16 * d + 4)
  len := leWord mem (q.region + 16 * d + 8)
  flags := leHalf mem (q.region + 16 * d + 12)
  next := leHalf mem (q.region + 16 * d + 14)

/-- The descriptors from `d` on, as far as the NEXT flags lead. -/
def chain (q : Queue) (mem : Nat → UInt8) : Nat → Nat → List Desc
  | 0, _ => []
  | fuel + 1, d =>
    let desc := tableDesc q mem d
    desc :: if desc.flags.testBit 0 then chain q mem fuel desc.next else []

/-- The descriptors of a chain with the WRITE flag: only these may the device write through. -/
def writable (q : Queue) (mem : Nat → UInt8) (d : Nat) : List Desc :=
  (chain q mem q.size d).filter fun desc => desc.flags.testBit 1

def room (descs : List Desc) : Nat := (descs.map Desc.len).sum

def scatter (mem : Nat → UInt8) : List Desc → List UInt8 → Nat → UInt8
  | [], _ => mem
  | desc :: descs, bytes =>
    let now := bytes.take desc.len
    scatter (overwrite mem desc.addr now.length fun i => now.getD i 0) descs (bytes.drop desc.len)

/-- The driver; the heads that the device has read from the available ring, up to index `seen`, and
not used; the frames that have arrived at it, and those of them it still has; how many it has
completed; and what `vnet_recv` has returned. -/
structure State where
  rx : Rx
  seen : Nat
  held : List Nat
  arrived : List Packet
  waiting : List Packet
  completed : Nat
  delivered : List (List UInt8)

inductive Event
  /-- A frame arrives at the device. -/
  | arrive (p : Packet)
  /-- The device reads the next entry of the available ring. -/
  | look
  /-- The device puts a frame into the buffers of a head that it holds. -/
  | complete (d : Nat) (p : Packet)
  /-- A call of `vnet_recv`. -/
  | recv (cap : Nat)

def look (q : Queue) (s : State) : State :=
  { s with
    seen := u16 (s.seen + 1)
    held := s.held ++ [leHalf s.rx.mem (q.deviceAvail + 4 + 2 * (s.seen % q.size))] }

def complete (q : Queue) (s : State) (d : Nat) (p : Packet) : State :=
  let elem := q.deviceUsed + 4 + 8 * (s.completed % q.size)
  let mem := scatter s.rx.mem (writable q s.rx.mem d) (p.header ++ p.frame)
  let mem := storeWord (storeWord mem elem d) (elem + 4) (12 + p.frame.length)
  { s with
    held := s.held.erase d
    waiting := s.waiting.erase p
    completed := s.completed + 1
    rx := { s.rx with mem := storeHalf mem (q.deviceUsed + 2) (u16 (s.completed + 1)) } }

def recv (q : Queue) (s : State) (cap : Nat) : State :=
  let r := vnetRecv q s.rx cap
  { s with rx := r.1, delivered := if r.2 = [] then s.delivered else s.delivered ++ [r.2] }

/-- Driver and device, in any interleaving. The device completes the heads it holds in any order,
each with a frame that its writable buffers have room for; `vnet_recv` has room for any frame
that fits a buffer. -/
def machine (q : Queue) : Machine State Event where
  init s := ∃ mem, s = ⟨vnetInit q mem, 0, [], [], [], 0, []⟩
  enabled s
    | .arrive _ => True
    | .look => s.seen ≠ leHalf s.rx.mem (q.deviceAvail + 2)
    | .complete d p => d ∈ s.held ∧ d < q.size ∧ p ∈ s.waiting ∧
      12 + p.frame.length ≤ room (writable q s.rx.mem d)
    | .recv cap => 2036 ≤ cap
  step s
    | .arrive p => { s with arrived := s.arrived ++ [p], waiting := s.waiting ++ [p] }
    | .look => look q s
    | .complete d p => complete q s d p
    | .recv cap => recv q s cap

/-! ## What the device finds -/

variable {q : Queue} {mem : Nat → UInt8}

lemma queueSize_le {maxq qs : Nat} (h : queueSize maxq = some qs) : qs ≤ 32 := by
  have hmin : (if maxq = 0 ∨ maxq > qn then (if qn < maxq then qn else maxq) else maxq) ≤ qn := by
    split
    · split <;> omega
    · omega
  simp only [queueSize] at h
  generalize (if maxq = 0 ∨ maxq > qn then (if qn < maxq then qn else maxq) else maxq) = m at h hmin
  by_cases hsmall : m < 8
  · rw [if_pos hsmall] at h
    cases h
  rw [if_neg hsmall] at h
  cases h
  exact hmin

/-- Apart from the index and the entries of the available ring, the pages are as `vq_setup` left
them. -/
def Untouched (q : Queue) (mem : Nat → UInt8) : Prop :=
  ∀ i < 2 * 4096, i < 512 ∨ 580 ≤ i → mem (q.region + i) = 0

lemma Untouched.storeHalf (h : Untouched q mem) (off v : Nat) (hlow : 512 ≤ off)
    (hhigh : off < 579) : Untouched q (storeHalf mem (q.region + off) v) := by
  intro i hi hout
  rw [Vnet.storeHalf, overwrite_outside (by omega)]
  exact h i hi hout

lemma Untouched.post {rx : Rx} (h : Untouched q rx.mem) (j : Nat) :
    Untouched q (post q rx j).mem := by
  have hslot : leHalf rx.mem (q.avail + 2) % qn < 32 := Nat.mod_lt _ (by decide)
  have hring := h.storeHalf (512 + 4 + 2 * (leHalf rx.mem (q.avail + 2) % qn)) (rx.nextDesc % qn)
    (by omega) (by omega)
  have hidx := hring.storeHalf (512 + 2) (u16 (rx.pubIdx + 1)) (by omega) (by omega)
  simpa only [Vnet.post, Queue.avail, qn, Nat.reduceMul, Nat.add_assoc] using hidx

lemma untouched_vnetInit (q : Queue) (mem : Nat → UInt8) : Untouched q (vnetInit q mem).mem := by
  have hsetup : Untouched q (vqSetup q mem).mem := by
    intro i hi _
    show overwrite mem q.region (2 * 4096) (fun _ => 0) (q.region + i) = 0
    exact overwrite_inside hi
  have hposts : ∀ (js : List Nat) (rx : Rx), Untouched q rx.mem →
      Untouched q (js.foldl (post q) rx).mem := by
    intro js
    induction js with
    | nil => exact fun _ h => h
    | cons j js ih => exact fun rx h => ih _ (h.post j)
  exact hposts _ _ hsetup

lemma Untouched.leHalf_eq_zero (h : Untouched q mem) {off : Nat} (hoff : off + 1 < 2 * 4096)
    (hout : off + 1 < 512 ∨ 580 ≤ off) : leHalf mem (q.region + off) = 0 := by
  rw [leHalf, Nat.add_assoc, h off (by omega) (by omega), h (off + 1) hoff (by omega)]
  rfl

lemma Untouched.usedIdx_eq_zero (h : Untouched q mem) : leHalf mem (q.used + 2) = 0 := by
  have haligned := q.aligned
  by_cases hlegacy : q.legacy = true
  · rw [Queue.used, if_pos hlegacy, Nat.add_assoc]
    exact h.leHalf_eq_zero (by omega) (by omega)
  · have hplace : (q.region + 16 * qn + 132 + 3) / 4 * 4 + 2 = q.region + 646 := by
      rw [qn]
      omega
    rw [Queue.used, if_neg hlegacy, hplace]
    exact h.leHalf_eq_zero (by omega) (by omega)

/-- None of the descriptors that the device can read has the WRITE flag. -/
lemma Untouched.writable_eq_nil (h : Untouched q mem) {d : Nat} (hd : d < q.size) :
    writable q mem d = [] := by
  have hsize := queueSize_le q.settled
  have hflags : (tableDesc q mem d).flags = 0 := by
    show leHalf mem (q.region + 16 * d + 12) = 0
    rw [Nat.add_assoc]
    exact h.leHalf_eq_zero (by omega) (by omega)
  rw [writable]
  cases q.size with
  | zero => rfl
  | succ fuel => simp [chain, hflags]

/-! ## Runs -/

/-- The device has completed nothing. -/
structure Starved (q : Queue) (s : State) : Prop where
  pages : Untouched q s.rx.mem
  lastUsed : s.rx.lastUsed = 0
  delivered : s.delivered = []

lemma Starved.vnetRecv {s : State} (h : Starved q s) (cap : Nat) :
    vnetRecv q s.rx cap = (s.rx, []) := by
  rw [Vnet.vnetRecv, h.pages.usedIdx_eq_zero, h.lastUsed]
  rfl

lemma Starved.step {s : State} (h : Starved q s) {e : Event} (henabled : (machine q).enabled s e) :
    Starved q ((machine q).step s e) := by
  cases e with
  | arrive p => exact ⟨h.pages, h.lastUsed, h.delivered⟩
  | look => exact ⟨h.pages, h.lastUsed, h.delivered⟩
  | complete d p =>
    obtain ⟨_, hd, _, hroom⟩ := henabled
    rw [h.pages.writable_eq_nil hd] at hroom
    exact absurd hroom (by simp [room])
  | recv cap =>
    have hnothing : (machine q).step s (.recv cap) = s := by
      show recv q s cap = s
      simp only [recv, h.vnetRecv cap, if_true]
    rwa [hnothing]

lemma starved_of_reachable {s : State} (hs : (machine q).Reachable s) : Starved q s := by
  refine hs.invariant (Starved q) ?_ fun s e h henabled => h.step henabled
  rintro s ⟨mem, rfl⟩
  exact ⟨untouched_vnetInit q mem, rfl, rfl⟩

lemma arrived_ne_nil {s t : State} {es : List Event} (hrun : (machine q).Run s es t)
    (hs : s.arrived ≠ []) : t.arrived ≠ [] := by
  refine hrun.invariant (fun s => s.arrived ≠ []) (fun s e h _ => ?_) hs
  cases e with
  | arrive p => exact append_ne_nil_of_left_ne_nil h _
  | look | complete | recv => exact h

/-- Whatever the state of driver and device, a run comes to deliver the frames that have arrived
exactly if none has: the driver's descriptors are not those that the device reads. -/
theorem frames_delivered_iff {q : Queue} {s : State} (hs : (machine q).Reachable s) :
    (∃ es t, (machine q).Run s es t ∧ t.delivered = t.arrived.map Packet.frame) ↔
      s.arrived = [] := by
  constructor
  · rintro ⟨es, t, hrun, hall⟩
    have hnone : t.arrived = [] := by
      rw [(starved_of_reachable (hs.run hrun)).delivered] at hall
      exact map_eq_nil_iff.mp hall.symm
    by_contra hsome
    exact arrived_ne_nil hrun hsome hnone
  · intro hnone
    refine ⟨[], s, .nil s, ?_⟩
    rw [(starved_of_reachable hs).delivered, hnone]
    rfl

def modernQueue : Queue := ⟨0x41280000, 0x40100000, false, 32, 32, by decide, by decide⟩

def plain : Packet := ⟨replicate 12 0, replicate 20 7, by decide, by decide⟩

def started : State := ⟨vnetInit modernQueue fun _ => 0, 0, [], [], [], 0, []⟩

/-- The device has read the eight heads that `vnet_init` posts, and a frame arrives. -/
def arrival : List Event := replicate 8 .look ++ [.arrive plain]

instance (q : Queue) (s : State) (e : Event) : Decidable ((machine q).enabled s e) := by
  cases e <;> unfold machine <;> infer_instance

lemma reachable_arrival :
    (machine modernQueue).Reachable (arrival.foldl (machine modernQueue).step started) :=
  ⟨started, arrival, ⟨_, rfl⟩, Machine.run_of_admitsAll _ _ (by decide +kernel)⟩

theorem frames_delivered_iff_arrival : ¬ ∃ es t, (machine modernQueue).Run
    (arrival.foldl (machine modernQueue).step started) es t ∧
      t.delivered = t.arrived.map Packet.frame := by
  rw [frames_delivered_iff reachable_arrival]
  decide +kernel

/-- The device holds eight heads and a frame. Of head 0 the driver says 2048 bytes at `rxbuf[0]`
to be written, and the table an empty buffer to be read; `vnet_recv` returns nothing. -/
theorem frames_not_delivered :
    let s := arrival.foldl (machine modernQueue).step started
    (machine modernQueue).Reachable s ∧ s.held = range 8 ∧ s.waiting = [plain] ∧
      s.rx.desc 0 = ⟨0x40100000, 2048, 2, 0⟩ ∧
      tableDesc modernQueue s.rx.mem 0 = ⟨0, 0, 0, 0⟩ ∧
      (vnetRecv modernQueue s.rx 2048).2 = [] :=
  ⟨reachable_arrival, by decide +kernel, by decide +kernel, by decide +kernel,
    by decide +kernel, by decide +kernel⟩

end Aeos.Vnet
