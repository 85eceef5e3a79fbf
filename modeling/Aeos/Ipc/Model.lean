/-
# Message queues

The queues of `kernel/ipc.c`. A message carries the bound on its length: `ipc_send`
clamps what it stores, so `ipc_recv` can trust what it finds.
-/

import Aeos.Lib.Access

namespace Aeos.Ipc

open Lib Function

def ipcMaxQueues : Nat := 8

def ipcMaxMsg : Nat := 16

def ipcMsgSize : Nat := 64

def ipcOk : Int := 0

def ipcErrFull : Int := -1

def ipcErrEmpty : Int := -2

def ipcErrInvalid : Int := -3

structure Msg where
  data : Nat → UInt8
  len : Nat
  sender : Nat
  len_le : len ≤ ipcMsgSize

structure Queue where
  id : Nat
  owner : Nat
  readerCount : Nat
  inUse : Bool
  queue : Nat → Msg
  head : Nat
  tail : Nat
  count : Nat

def queueAt (queues : Nat → Queue) (queueId : Int) : Option Nat :=
  if 0 ≤ queueId ∧ queueId < ipcMaxQueues ∧ (queues queueId.toNat).inUse then some queueId.toNat
  else none

def ipcCreate (queues : Nat → Queue) (owner : Nat) : Int × (Nat → Queue) :=
  match (List.range ipcMaxQueues).find? fun i => !(queues i).inUse with
  | none => (ipcErrFull, queues)
  | some i =>
    (i, update queues i
      { queues i with
        id := i, owner := owner, readerCount := 0, inUse := true, head := 0, tail := 0,
          count := 0 })

def copyLen (len : Nat) : Nat := if ipcMsgSize < len then ipcMsgSize else len

lemma copyLen_le_msgSize (len : Nat) : copyLen len ≤ ipcMsgSize := by
  unfold copyLen
  split <;> omega

lemma copyLen_le (len : Nat) : copyLen len ≤ len := by
  unfold copyLen
  split <;> omega

def Queue.put (q : Queue) (msg : Msg) : Queue :=
  { q with
    queue := update q.queue q.tail msg
    tail := (q.tail + 1) % ipcMaxMsg
    count := q.count + 1 }

def ipcSend (queues : Nat → Queue) (queueId : Int) (data : BitVec 64) (len sender : Nat) :
  Access 64 UInt8 (Int × (Nat → Queue)) :=
  match queueAt queues queueId with
  | none => pure (ipcErrInvalid, queues)
  | some i =>
    let q := queues i
    let slot := q.queue q.tail
    if ipcMaxMsg ≤ q.count then pure (ipcErrFull, queues)
    else if data = 0 ∧ 0 < len then pure (ipcErrInvalid, queues)
    else if 0 < copyLen len ∧ data ≠ 0 then do
      let bytes ← Access.loadBytes data (copyLen len)
      pure (ipcOk, update queues i (q.put
        { data := overwrite slot.data 0 (copyLen len) fun j => bytes.getD j 0
          len := copyLen len
          sender := sender
          len_le := copyLen_le_msgSize len }))
    else
      pure (ipcOk, update queues i (q.put
        { slot with len := 0, sender := sender, len_le := Nat.zero_le _ }))

def storeOptional (ptr : BitVec 64) (x : Nat) : Access 64 UInt8 Unit :=
  if ptr = 0 then pure () else Access.storeWord ptr x

def ipcRecv (queues : Nat → Queue) (queueId : Int) (buf len sender : BitVec 64) :
  Access 64 UInt8 (Int × (Nat → Queue)) :=
  match queueAt queues queueId with
  | none => pure (ipcErrInvalid, queues)
  | some i =>
    let q := queues i
    let msg := q.queue q.head
    if buf = 0 then pure (ipcErrInvalid, queues)
    else if q.count = 0 then pure (ipcErrEmpty, queues)
    else do
      Access.storeBytes buf ((List.range msg.len).map msg.data)
      storeOptional len msg.len
      storeOptional sender msg.sender
      pure (ipcOk, update queues i
        { q with head := (q.head + 1) % ipcMaxMsg, count := q.count - 1 })

def ipcDestroy (queues : Nat → Queue) (queueId : Int) : Int × (Nat → Queue) :=
  match queueAt queues queueId with
  | none => (ipcErrInvalid, queues)
  | some i => (ipcOk, update queues i { queues i with inUse := false })

/-! ## What the calls touch -/

section
variable {P : BitVec 64 → Prop} {m : BitVec 64 → UInt8} (queues : Nat → Queue) (queueId : Int)

lemma stays_ipcSend {data : BitVec 64} {len sender : Nat} (hdata : ∀ j < len, P (place data j)) :
  Access.Stays P (ipcSend queues queueId data len sender) m := by
  unfold ipcSend
  cases queueAt queues queueId with
  | none => exact Access.stays_pure _
  | some i =>
    dsimp only
    split_ifs
    · exact Access.stays_pure _
    · exact Access.stays_pure _
    · rw [Access.stays_bind]
      refine ⟨?_, Access.stays_pure _⟩
      apply Access.stays_loadBytes
      intro j hj
      exact hdata j (Nat.lt_of_lt_of_le hj (copyLen_le len))
    · exact Access.stays_pure _

lemma stays_storeOptional {ptr : BitVec 64} {x : Nat}
  (hptr : ptr ≠ 0 → ∀ j < 4, P (place ptr j)) : Access.Stays P (storeOptional ptr x) m := by
  unfold storeOptional
  split_ifs with hnull
  · exact Access.stays_pure _
  · exact Access.stays_storeWord (hptr hnull)

lemma stays_ipcRecv {buf len sender : BitVec 64} (hbuf : ∀ j < ipcMsgSize, P (place buf j))
  (hlen : len ≠ 0 → ∀ j < 4, P (place len j)) (hsender : sender ≠ 0 → ∀ j < 4, P (place sender j)) :
  Access.Stays P (ipcRecv queues queueId buf len sender) m := by
  unfold ipcRecv
  cases queueAt queues queueId with
  | none => exact Access.stays_pure _
  | some i =>
    dsimp only
    split_ifs
    · exact Access.stays_pure _
    · exact Access.stays_pure _
    simp only [Access.stays_bind]
    refine ⟨?_, stays_storeOptional hlen, stays_storeOptional hsender, Access.stays_pure _⟩
    apply Access.stays_storeBytes
    intro j hj
    rw [List.length_map, List.length_range] at hj
    exact hbuf j (Nat.lt_of_lt_of_le hj ((queues i).queue (queues i).head).len_le)

end
end Aeos.Ipc
