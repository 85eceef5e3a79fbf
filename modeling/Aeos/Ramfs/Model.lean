/-
# RAM filesystem

The files of `kernel/ramfs.c`. Names are passed as pointers and are read byte by byte
from the caller's memory. The directory functions, which are all that system calls
reach, work on the slots without their contents; a `Store` adds these.
-/

import Aeos.Lib.Access

namespace Aeos.Ramfs

open Lib Function

def ramfsMaxFiles : Nat := 32

def ramfsMaxName : Nat := 16

def ramfsMaxSize : Nat := 4096

def ramfsOk : Int := 0

def ramfsErrFull : Int := -1

def ramfsErrNotfound : Int := -2

def ramfsErrInval : Int := -4

structure File where
  name : Nat → UInt8
  size : Nat
  inUse : Bool

structure Directory where
  files : Nat → File
  fileCount : Nat

def Directory.nameAt (d : Directory) (i : Nat) : Option (Nat → UInt8) :=
  if (d.files i).inUse then some (d.files i).name else none

def findFile (d : Directory) (name : BitVec 64) : Access 64 UInt8 (Option Nat) :=
  Access.lookup d.nameAt name ramfsMaxName ramfsMaxFiles

def freeSlot (d : Directory) : Option Nat :=
  (List.range ramfsMaxFiles).find? fun i => !(d.files i).inUse

def copyName (name : BitVec 64) : Access 64 UInt8 (Nat → UInt8) := do
  let j ← Access.scan name (fun _ b => decide (b ≠ 0)) ramfsMaxName
  let text ← Access.loadBytes name j
  pure fun k => text.getD k 0

def ramfsCreate (d : Directory) (name : BitVec 64) : Access 64 UInt8 (Int × Directory) := do
  let found ← findFile d name
  match found, freeSlot d with
  | some _, _ => pure (ramfsOk, d)
  | none, none => pure (ramfsErrFull, d)
  | none, some i => do
      let field ← copyName name
      pure (ramfsOk,
        { files := update d.files i ⟨field, 0, true⟩
          fileCount := (d.fileCount + 1) % 2 ^ 32 })

def ramfsDelete (d : Directory) (name : BitVec 64) : Access 64 UInt8 (Int × Directory) := do
  let found ← findFile d name
  match found with
  | none => pure (ramfsErrNotfound, d)
  | some i =>
    pure (ramfsOk,
      { files := update d.files i { d.files i with inUse := false, size := 0 }
        fileCount := (d.fileCount + (2 ^ 32 - 1)) % 2 ^ 32 })

/-! ## Contents -/

structure Store extends Directory where
  data : Nat → Nat → UInt8

def ramfsInit (st : Store) : Store :=
  { st with
    files := fun i => if i < ramfsMaxFiles then { st.files i with inUse := false, size := 0 }
      else st.files i
    fileCount := 0 }

def Store.put (st : Store) (i offset : Nat) (bytes : List UInt8) : Store :=
  let stop := offset + bytes.length
  { st with
    files := update st.files i
      { st.files i with size := if (st.files i).size < stop then stop else (st.files i).size }
    data := update st.data i
      (overwrite (st.data i) offset bytes.length fun j => bytes.getD j 0) }

def ramfsWrite (st : Store) (name data : BitVec 64) (len offset : BitVec 32) :
  Access 64 UInt8 (Int × Store) := do
  let found ← findFile st.toDirectory name
  match found with
  | none => pure (ramfsErrNotfound, st)
  | some i =>
    if ramfsMaxSize ≤ offset.toNat then pure (ramfsErrInval, st)
    else do
      let remaining := ramfsMaxSize - offset.toNat
      let copyLen := if remaining < len.toNat then remaining else len.toNat
      let bytes ← Access.loadBytes data copyLen
      pure (copyLen, st.put i offset.toNat bytes)

def ramfsRead (st : Store) (name buf : BitVec 64) (len offset : BitVec 32) :
  Access 64 UInt8 Int := do
  let found ← findFile st.toDirectory name
  match found with
  | none => pure ramfsErrNotfound
  | some i =>
    let size := (st.files i).size
    let stop := if size < (offset + len).toNat then size else (offset + len).toNat
    if size ≤ offset.toNat then pure 0
    else do
      Access.storeBytes buf
        ((List.range (stop - offset.toNat)).map fun k => st.data i (offset.toNat + k))
      pure (BitVec.ofNat 32 stop - offset).toInt

def ramfsExists (st : Store) (name : BitVec 64) : Access 64 UInt8 Bool := do
  let found ← findFile st.toDirectory name
  pure found.isSome

def ramfsSize (st : Store) (name : BitVec 64) : Access 64 UInt8 Nat := do
  let found ← findFile st.toDirectory name
  match found with
  | none => pure 0
  | some i => pure (st.files i).size

/-! ## What the calls touch -/

section
variable {P : BitVec 64 → Prop} {m : BitVec 64 → UInt8} (d : Directory) (name : BitVec 64)

lemma stays_copyName : Access.Stays P (copyName name) m ↔
    ∀ j < ramfsMaxName, (∀ k < j, m (place name k) ≠ 0) → P (place name j) := by
  have hscan : Access.Stays P (Access.scan name (fun _ b => decide (b ≠ 0)) ramfsMaxName) m ↔
      ∀ j < ramfsMaxName, (∀ k < j, m (place name k) ≠ 0) → P (place name j) := by
    rw [Access.stays_scan]
    simp only [decide_eq_true_eq]
  rw [copyName, Access.stays_bind, Access.stays_bind, ← hscan]
  apply and_iff_left_of_imp
  intro h
  refine ⟨?_, Access.stays_pure _⟩
  apply Access.stays_loadBytes
  intro k hk
  exact h.of_lt_scan _ _ _ hk

lemma stays_findFile : Access.Stays P (findFile d name) m ↔
    ∀ i < ramfsMaxFiles, ∀ field ∈ d.nameAt i, ∀ j < ramfsMaxName,
      (∀ k < j, field k = m (place name k)) → P (place name j) :=
  Access.stays_lookup d.nameAt name ramfsMaxName ramfsMaxFiles m

lemma stays_ramfsDelete :
  Access.Stays P (ramfsDelete d name) m ↔ Access.Stays P (findFile d name) m := by
  rw [ramfsDelete, Access.stays_bind]
  apply and_iff_left
  cases (findFile d name m).value with
  | none => exact Access.stays_pure _
  | some i => exact Access.stays_pure _

lemma stays_ramfsCreate : Access.Stays P (ramfsCreate d name) m ↔
    Access.Stays P (findFile d name) m ∧ ((findFile d name m).value = none → (freeSlot d).isSome →
        Access.Stays P (copyName name) m) := by
  rw [ramfsCreate, Access.stays_bind, findFile, Access.mem_lookup]
  apply and_congr_right
  intro _
  cases (Access.lookup d.nameAt name ramfsMaxName ramfsMaxFiles m).value with
  | some i => simp
  | none =>
    cases freeSlot d with
    | none => simp
    | some i => simp

end
end Aeos.Ramfs
