/-
# Devices

The device framework of `kernel/device.c`. A device is known by its pointer, `0`
being the null pointer. The drivers behind it are arbitrary: a driver may do what
it likes to memory of its own, but of the memory a caller passes in it touches the
buffer only.
-/

import Aeos.Lib.CString

namespace Aeos.Devices

open Lib Function

def devNameLen : Nat := 16

def devMax : Nat := 16

def InBuffer (buf : BitVec 64) (len : BitVec 32) (a : BitVec 64) : Prop :=
  ∃ j < len.toNat, a = place buf j

structure Driver where
  openFn : Option ((BitVec 64 → UInt8) → BitVec 64 → UInt8)
  readFn : Option (BitVec 64 → BitVec 32 → Access 64 UInt8 Int)
  writeFn : Option (BitVec 64 → BitVec 32 → Access 64 UInt8 Int)
  ioctlFn : Option (BitVec 32 → BitVec 32 → Access 64 UInt8 Int)
  readFn_stays : ∀ f ∈ readFn, ∀ buf len m, Access.Stays (InBuffer buf len) (f buf len) m
  writeFn_stays : ∀ f ∈ writeFn, ∀ buf len m, Access.Stays (InBuffer buf len) (f buf len) m
  ioctlFn_stays : ∀ f ∈ ioctlFn, ∀ cmd arg m, Access.Stays (fun _ => False) (f cmd arg) m

structure Device where
  name : Nat → UInt8
  openCount : Nat
  driver : Driver

/-- The static variables of `device.c` with the devices they point to. -/
structure Table where
  devTable : Nat → Nat
  devCount : Nat
  device : Nat → Device

def deviceRegister (t : Table) (name : List UInt8) (dev : Nat) : Int × Table :=
  if devMax ≤ t.devCount then (-1, t)
  else
    let registered :=
      { t.device dev with
        name := fun j => ((cstr name).take devNameLen).getD j 0
        openCount := 0 }
    (0,
      { devTable := update t.devTable t.devCount dev
        devCount := t.devCount + 1
        device := update t.device dev registered })

def Table.nameAt (t : Table) (i : Nat) : Option (Nat → UInt8) :=
  if t.devTable i = 0 then none else some (t.device (t.devTable i)).name

def callOpen (driver : Driver) : Access 64 UInt8 Unit :=
  match driver.openFn with
  | none => pure ()
  | some f => Access.meanwhile f

/-- `device_open`: the device, or the null pointer. -/
def deviceOpen (t : Table) (name : BitVec 64) : Access 64 UInt8 (Nat × Table) := do
  let found ← Access.lookup t.nameAt name devNameLen t.devCount
  match found with
  | none => pure (0, t)
  | some i => do
      let dev := t.devTable i
      let opened := { t.device dev with openCount := ((t.device dev).openCount + 1) % 2 ^ 8 }
      callOpen opened.driver
      pure (dev, { t with device := update t.device dev opened })

def callDriver {F : Type} (t : Table) (dev : Nat) (fn : Driver → Option F)
  (call : F → Access 64 UInt8 Int) : Access 64 UInt8 Int :=
  if dev = 0 then pure (-1)
  else match fn (t.device dev).driver with
    | none => pure (-1)
    | some f => call f

def deviceRead (t : Table) (dev : Nat) (buf : BitVec 64) (len : BitVec 32) : Access 64 UInt8 Int :=
  callDriver t dev Driver.readFn fun f => f buf len

def deviceWrite (t : Table) (dev : Nat) (buf : BitVec 64) (len : BitVec 32) : Access 64 UInt8 Int :=
  callDriver t dev Driver.writeFn fun f => f buf len

def deviceIoctl (t : Table) (dev : Nat) (cmd arg : BitVec 32) : Access 64 UInt8 Int :=
  callDriver t dev Driver.ioctlFn fun f => f cmd arg

/-! ## What the calls come to -/

def Table.Registered (t : Table) (dev : Nat) : Prop :=
  dev ≠ 0 ∧ ∃ i < t.devCount, t.devTable i = dev

variable {t : Table} {name : BitVec 64} {m : BitVec 64 → UInt8}

lemma deviceRegister_full (hfull : devMax ≤ t.devCount) (name : List UInt8) (dev : Nat) :
  (deviceRegister t name dev).2 = t := by
  rw [deviceRegister, if_pos hfull]

section
variable {t : Table} (hroom : t.devCount < devMax) (name : List UInt8)
include hroom

lemma deviceRegister_registered {dev : Nat} (hdev : dev ≠ 0) {d : Nat} :
  (deviceRegister t name dev).2.Registered d ↔ t.Registered d ∨ d = dev := by
  rw [deviceRegister, if_neg (not_le.mpr hroom)]
  constructor
  · rintro ⟨hne, i, hi, heq⟩
    dsimp only at hi heq
    by_cases hlast : i = t.devCount
    · subst hlast
      rw [update_self] at heq
      exact .inr heq.symm
    rw [update_of_ne hlast] at heq
    exact .inl ⟨hne, i, by omega, heq⟩
  rintro (⟨hne, i, hi, heq⟩ | rfl)
  · refine ⟨hne, i, Nat.lt_succ_of_lt hi, ?_⟩
    dsimp only
    rwa [update_of_ne hi.ne]
  · exact ⟨hdev, t.devCount, Nat.lt_succ_self _, update_self _ _ _⟩

lemma deviceRegister_openCount (dev d : Nat) : ((deviceRegister t name dev).2.device d).openCount =
    if d = dev then 0 else (t.device d).openCount := by
  rw [deviceRegister, if_neg (not_le.mpr hroom)]
  dsimp only
  by_cases hd : d = dev
  · rw [hd, update_self, if_pos rfl]
  · rw [update_of_ne hd, if_neg hd]

end

def Table.opened (t : Table) (dev : Nat) : Table :=
  { t with
    device := update t.device dev
      { t.device dev with openCount := ((t.device dev).openCount + 1) % 2 ^ 8 } }

lemma opened_openCount (t : Table) (dev d : Nat) : ((t.opened dev).device d).openCount =
    if d = dev then ((t.device dev).openCount + 1) % 2 ^ 8 else (t.device d).openCount := by
  unfold Table.opened
  dsimp only
  by_cases hd : d = dev
  · rw [hd, update_self, if_pos rfl]
  · rw [update_of_ne hd, if_neg hd]

def Table.find (t : Table) (name : BitVec 64) (m : BitVec 64 → UInt8) : Option Nat :=
  (Access.lookup t.nameAt name devNameLen t.devCount m).value

lemma deviceOpen_none (hfind : t.find name m = none) : (deviceOpen t name m).value = (0, t) := by
  have hlookup : (Access.lookup t.nameAt name devNameLen t.devCount m).value = none := hfind
  rw [deviceOpen, Access.value_bind, hlookup]
  rfl

lemma deviceOpen_some {i : Nat} (hfind : t.find name m = some i) :
  (deviceOpen t name m).value = (t.devTable i, t.opened (t.devTable i)) := by
  have hlookup : (Access.lookup t.nameAt name devNameLen t.devCount m).value = some i := hfind
  rw [deviceOpen, Access.value_bind, hlookup]
  rfl

lemma Table.registered_of_find {i : Nat} (hfind : t.find name m = some i) :
  t.Registered (t.devTable i) := by
  obtain ⟨hi, field, hfield, _⟩ := Access.lookup_eq_some _ _ _ _ _ hfind
  refine ⟨fun hnull => ?_, i, hi, rfl⟩
  rw [Table.nameAt, if_pos hnull] at hfield
  cases hfield

section
variable {P : BitVec 64 → Prop} {m : BitVec 64 → UInt8} (t : Table)

lemma stays_deviceOpen (name : BitVec 64) : Access.Stays P (deviceOpen t name) m ↔
    ∀ i < t.devCount, ∀ field ∈ t.nameAt i, ∀ j < devNameLen,
      (∀ k < j, field k = m (place name k)) → P (place name j) := by
  rw [deviceOpen, Access.stays_bind, Access.stays_lookup]
  apply and_iff_left
  cases (Access.lookup t.nameAt name devNameLen t.devCount m).value with
  | none => exact Access.stays_pure _
  | some i =>
    rw [Access.stays_bind]
    refine ⟨?_, Access.stays_pure _⟩
    unfold callOpen
    cases (t.device (t.devTable i)).driver.openFn with
    | none => exact Access.stays_pure _
    | some f => exact Access.stays_meanwhile f

lemma stays_callDriver {F : Type} (dev : Nat) (fn : Driver → Option F)
  {call : F → Access 64 UInt8 Int}
  (hcall : ∀ f ∈ fn (t.device dev).driver, Access.Stays P (call f) m) :
  Access.Stays P (callDriver t dev fn call) m := by
  unfold callDriver
  by_cases hnull : dev = 0
  · rw [if_pos hnull]
    exact Access.stays_pure _
  rw [if_neg hnull]
  cases hfn : fn (t.device dev).driver with
  | none => exact Access.stays_pure _
  | some f => exact hcall f hfn

lemma stays_deviceRead (dev : Nat) (buf : BitVec 64) (len : BitVec 32) :
  Access.Stays (InBuffer buf len) (deviceRead t dev buf len) m := by
  apply stays_callDriver
  intro f hf
  exact (t.device dev).driver.readFn_stays f hf buf len m

lemma stays_deviceWrite (dev : Nat) (buf : BitVec 64) (len : BitVec 32) :
  Access.Stays (InBuffer buf len) (deviceWrite t dev buf len) m := by
  apply stays_callDriver
  intro f hf
  exact (t.device dev).driver.writeFn_stays f hf buf len m

lemma stays_deviceIoctl (dev : Nat) (cmd arg : BitVec 32) :
  Access.Stays P (deviceIoctl t dev cmd arg) m := by
  apply stays_callDriver
  intro f hf
  exact ((t.device dev).driver.ioctlFn_stays f hf cmd arg m).mono fun _ => False.elim

end
end Aeos.Devices
