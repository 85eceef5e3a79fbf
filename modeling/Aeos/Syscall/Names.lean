/-
# Names as callers pass them

System calls hand `find_file` and `device_open` pointers to strings.
-/

import Aeos.Device.Model
import Aeos.Ramfs.Slots

namespace Aeos.Syscall.Names

open Lib

section
open Ramfs
variable {s : Slots.State} {m m' : BitVec 64 → UInt8} {p p' : BitVec 64}

lemma zeroPadded_nameAt (hreach : Slots.machine.Reachable s) (i : Nat) (hi : i < ramfsMaxFiles)
  (f : Nat → UInt8) (hf : f ∈ s.store.nameAt i) : ZeroPadded fun j : Fin ramfsMaxName => f j := by
  rw [Directory.nameAt] at hf
  split_ifs at hf with huse
  · cases hf
    exact (Slots.inv_of_reachable hreach i huse hi).padded
  · cases hf

lemma zeroPadded_of_findFile (hreach : Slots.machine.Reachable s) {i : Nat}
  (hfound : (findFile s.store.toDirectory p m).value = some i) : ZeroPadded (nameIn m p) := by
  by_contra hpad
  have hnone : (findFile s.store.toDirectory p m).value = none :=
    lookup_of_not_zeroPadded (zeroPadded_nameAt hreach) hpad
  rw [hnone] at hfound
  cases hfound

lemma ramfsExists_iff (st : Store) :
  (ramfsExists st p m).value = true ↔ ∃ i, (findFile st.toDirectory p m).value = some i := by
  rw [ramfsExists, Access.value_bind, Access.run_pure, Option.isSome_iff_exists]

lemma exists_of_create (hpad : ZeroPadded (nameIn m p))
  (hok : (ramfsCreate s.store.toDirectory p m).value.1 = ramfsOk) :
  (ramfsExists (Slots.react s (.create m p)).store p m).value = true := by
  rw [ramfsExists_iff]
  change ∃ i, (findFile (ramfsCreate s.store.toDirectory p m).value.2 p m).value = some i
  cases hfound : (findFile s.store.toDirectory p m).value with
  | some i =>
    rw [ramfsCreate_found hfound]
    exact ⟨i, hfound⟩
  | none =>
    cases hfree : freeSlot s.store.toDirectory with
    | none =>
      rw [ramfsCreate_full hfound hfree] at hok
      exact absurd hok (by decide : ramfsErrFull ≠ ramfsOk)
    | some i =>
      obtain ⟨hi, huse⟩ := freeSlot_some hfree
      rw [ramfsCreate_new hfound hfree, ← Option.ne_none_iff_exists']
      intro hnone
      exact findFile_eq_none hnone i
        ((holds_added hi huse (copyName_value hpad)).mpr (.inl ⟨rfl, rfl⟩))

lemma create_bootState (m : BitVec 64 → UInt8) (p : BitVec 64) :
  (ramfsCreate Slots.bootState.store.toDirectory p m).value =
    (ramfsOk, Slots.bootState.store.added 0 (copyName p m).value) := by
  have hvacant : ∀ i, (Slots.bootState.store.files i).inUse = false := by
    intro i
    simp [Slots.bootState, ramfsInit]
  have hnone : (findFile Slots.bootState.store.toDirectory p m).value = none := by
    cases hfound : (findFile Slots.bootState.store.toDirectory p m).value with
    | none => rfl
    | some i =>
      obtain ⟨_, huse, _⟩ := holds_of_findFile hfound
      rw [hvacant i] at huse
      cases huse
  exact ramfsCreate_new hnone (by decide)

def firstFile (m : BitVec 64 → UInt8) (p : BitVec 64) : Slots.State :=
  Slots.react Slots.bootState (.create m p)

lemma reachable_firstFile (m : BitVec 64 → UInt8) (p : BitVec 64) :
  Slots.machine.Reachable (firstFile m p) :=
  Slots.reachable_foldl [.create m p]

lemma create_bootState_ok (m : BitVec 64 → UInt8) (p : BitVec 64) :
  (ramfsCreate Slots.bootState.store.toDirectory p m).value.1 = ramfsOk := by
  rw [create_bootState]

lemma findFile_firstFile (hpad : ZeroPadded (nameIn m p)) :
  ∃ i, (findFile (firstFile m p).store.toDirectory p m).value = some i := by
  have hexists := exists_of_create hpad (create_bootState_ok m p)
  rwa [ramfsExists_iff] at hexists

lemma find_same_iff (hsame : SameString (nameIn m p) (nameIn m' p')) :
  (∀ s, Slots.machine.Reachable s →
      (findFile s.store.toDirectory p m).value = (findFile s.store.toDirectory p' m').value) ↔
    (ZeroPadded (nameIn m p) ↔ ZeroPadded (nameIn m' p')) := by
  constructor
  · intro hall
    constructor
    · intro hpad
      obtain ⟨i, hi⟩ := findFile_firstFile hpad
      rw [hall _ (reachable_firstFile m p)] at hi
      exact zeroPadded_of_findFile (reachable_firstFile m p) hi
    intro hpad
    obtain ⟨i, hi⟩ := findFile_firstFile hpad
    rw [← hall _ (reachable_firstFile m' p')] at hi
    exact zeroPadded_of_findFile (reachable_firstFile m' p') hi
  intro hboth s hreach
  exact lookup_eq_of_sameString (zeroPadded_nameAt hreach) hsame hboth

lemma create_exists_iff : (∀ s, Slots.machine.Reachable s →
      (ramfsCreate s.store.toDirectory p m).value.1 = ramfsOk →
      (ramfsExists (Slots.react s (.create m p)).store p m).value = true) ↔
    ZeroPadded (nameIn m p) := by
  constructor
  · intro hall
    have hboot := Slots.reachable_foldl []
    have hexists := hall _ hboot (create_bootState_ok m p)
    obtain ⟨i, hi⟩ := (ramfsExists_iff _).mp hexists
    exact zeroPadded_of_findFile (reachable_firstFile m p) hi
  intro hpad s _
  exact exists_of_create hpad

/-- A file whose name is the string in the buffer. -/
def Stored (s : Slots.State) (m : BitVec 64 → UInt8) (p : BitVec 64) : Prop :=
  ∃ i < ramfsMaxFiles, (s.store.files i).inUse = true ∧
    SameString (fun j : Fin ramfsMaxName => (s.store.files i).name j) (nameIn m p)

lemma stored_firstFile (m : BitVec 64 → UInt8) (p : BitVec 64) : Stored (firstFile m p) m p := by
  have hfiles : (firstFile m p).store.files 0 = ⟨(copyName p m).value, 0, true⟩ := by
    change (ramfsCreate Slots.bootState.store.toDirectory p m).value.2.files 0 = _
    rw [create_bootState]
    simp [Directory.added]
  refine ⟨0, by decide, by rw [hfiles], ?_⟩
  rw [hfiles, funext (copyName_eq m p)]
  exact (sameString_zeroPad _).symm

lemma create_stored_iff : (∀ s, Slots.machine.Reachable s → Stored s m p →
      (ramfsCreate s.store.toDirectory p m).value = (ramfsOk, s.store.toDirectory)) ↔
    ZeroPadded (nameIn m p) := by
  constructor
  · intro hall
    have hsame := hall _ (reachable_firstFile m p) (stored_firstFile m p)
    cases hfound : (findFile (firstFile m p).store.toDirectory p m).value with
    | some i => exact zeroPadded_of_findFile (reachable_firstFile m p) hfound
    | none =>
      -- Nothing is found, so the call fails or fills another slot.
      cases hfree : freeSlot (firstFile m p).store.toDirectory with
      | none =>
        rw [ramfsCreate_full hfound hfree] at hsame
        exact absurd (congrArg Prod.fst hsame) (by decide : ramfsErrFull ≠ ramfsOk)
      | some i =>
        rw [ramfsCreate_new hfound hfree] at hsame
        have huse := congrArg (fun r : Int × Directory => (r.2.files i).inUse) hsame
        simp [Directory.added, (freeSlot_some hfree).2] at huse
  rintro hpad s hreach ⟨i, hi, huse, hname⟩
  have hfield : (s.store.files i).name ∈ s.store.nameAt i := by
    rw [Directory.nameAt, if_pos huse]
    rfl
  obtain ⟨k, hk⟩ := lookup_of_zeroPadded (zeroPadded_nameAt hreach) hpad hi hfield hname
  exact ramfsCreate_found hk

end

section
open Devices

inductive DeviceEvent
  | register (name : List UInt8) (dev : Nat)
  | openDevice (memory : BitVec 64 → UInt8) (name : BitVec 64)

def reactDevices (t : Table) : DeviceEvent → Table
  | .register name dev => (deviceRegister t name dev).2
  | .openDevice memory name => (deviceOpen t name memory).value.2

/-- Every sequence of registrations and opens after `device_init`. -/
def deviceMachine : Machine Table DeviceEvent where
  init t := t.devCount = 0 ∧ ∀ i, t.devTable i = 0
  enabled _
    | .register _ dev => dev ≠ 0
    | .openDevice _ _ => True
  step := reactDevices

def deviceName (t : Table) (dev : Nat) : Fin devNameLen → UInt8 := fun j => (t.device dev).name j

def NamesPadded (t : Table) : Prop := ∀ dev, t.Registered dev → ZeroPadded (deviceName t dev)

variable {t : Table} {m m' : BitVec 64 → UInt8} {p p' : BitVec 64}

lemma deviceName_opened (t : Table) (dev d : Nat) :
  deviceName (t.opened dev) d = deviceName t d := by
  funext j
  unfold deviceName Table.opened
  by_cases hd : d = dev
  · simp [hd]
  · simp [hd]

lemma deviceName_register (hroom : t.devCount < devMax) (name : List UInt8) (dev d : Nat) :
  deviceName (deviceRegister t name dev).2 d =
    if d = dev then zeroPad fun j : Fin devNameLen => name.getD j 0 else deviceName t d := by
  rw [deviceRegister, if_neg (not_le.mpr hroom)]
  by_cases hd : d = dev
  · rw [if_pos hd, hd, ← getD_take_cstr]
    funext j
    simp [deviceName]
  funext j
  simp [deviceName, hd]

lemma namesPadded_register (h : NamesPadded t) (name : List UInt8) {dev : Nat} (hdev : dev ≠ 0) :
  NamesPadded (deviceRegister t name dev).2 := by
  by_cases hroom : t.devCount < devMax
  · intro d hd
    rw [deviceName_register hroom]
    split_ifs with heq
    · exact zeroPadded_zeroPad _
    rcases (deviceRegister_registered hroom name hdev).mp hd with hold | hnew
    · exact h d hold
    · exact absurd hnew heq
  rw [deviceRegister_full (not_lt.mp hroom)]
  exact h

lemma namesPadded_open (h : NamesPadded t) (m : BitVec 64 → UInt8) (p : BitVec 64) :
  NamesPadded (deviceOpen t p m).value.2 := by
  cases hfind : t.find p m with
  | none =>
    rw [deviceOpen_none hfind]
    exact h
  | some i =>
    rw [deviceOpen_some hfind]
    intro d hd
    rw [deviceName_opened]
    exact h d hd

section
variable (hreach : deviceMachine.Reachable t)
include hreach

lemma namesPadded_of_reachable : NamesPadded t := by
  refine hreach.invariant NamesPadded ?_ ?_
  · rintro t ⟨hcount, _⟩ dev ⟨_, i, hi, _⟩
    rw [hcount] at hi
    exact absurd hi (Nat.not_lt_zero i)
  intro t e h henabled
  cases e with
  | register name dev => exact namesPadded_register h name henabled
  | openDevice memory name => exact namesPadded_open h memory name

lemma zeroPadded_deviceNameAt (i : Nat) (hi : i < t.devCount) (f : Nat → UInt8)
    (hf : f ∈ t.nameAt i) : ZeroPadded fun j : Fin devNameLen => f j := by
  rw [Table.nameAt] at hf
  split_ifs at hf with hnull
  · cases hf
  cases hf
  exact namesPadded_of_reachable hreach _ ⟨hnull, i, hi, rfl⟩

lemma zeroPadded_of_find {i : Nat} (hfind : t.find p m = some i) :
    ZeroPadded (fieldAt devNameLen m p) := by
  by_contra hpad
  have hnone : t.find p m = none := lookup_of_not_zeroPadded (zeroPadded_deviceNameAt hreach) hpad
  rw [hnone] at hfind
  cases hfind

end

/-- A device whose name is the string in the buffer. -/
def Known (t : Table) (m : BitVec 64 → UInt8) (p : BitVec 64) : Prop :=
  ∃ dev, t.Registered dev ∧ SameString (deviceName t dev) (fieldAt devNameLen m p)

lemma find_of_known (hreach : deviceMachine.Reachable t)
  (hpad : ZeroPadded (fieldAt devNameLen m p)) (hknown : Known t m p) :
  ∃ i, t.find p m = some i := by
  obtain ⟨dev, ⟨hdev, i, hi, rfl⟩, hname⟩ := hknown
  have hfield : (t.device (t.devTable i)).name ∈ t.nameAt i := by
    rw [Table.nameAt, if_neg hdev]
    rfl
  exact lookup_of_zeroPadded (zeroPadded_deviceNameAt hreach) hpad hi hfield hname

def bareDriver : Driver where
  openFn := none
  readFn := none
  writeFn := none
  ioctlFn := none
  readFn_stays := by simp
  writeFn_stays := by simp
  ioctlFn_stays := by simp

def bootTable : Table where
  devTable _ := 0
  devCount := 0
  device _ := ⟨fun _ => 0, 0, bareDriver⟩

def firstDevice (m : BitVec 64 → UInt8) (p : BitVec 64) : Table :=
  reactDevices bootTable (.register (List.ofFn (fieldAt devNameLen m p)) 1)

lemma reachable_firstDevice (m : BitVec 64 → UInt8) (p : BitVec 64) :
  deviceMachine.Reachable (firstDevice m p) := by
  have hboot : deviceMachine.Reachable bootTable :=
    Machine.reachable_of_init ⟨rfl, fun _ => rfl⟩
  have henabled : deviceMachine.enabled bootTable
      (.register (List.ofFn (fieldAt devNameLen m p)) 1) := one_ne_zero
  exact hboot.step henabled

lemma known_firstDevice (m : BitVec 64 → UInt8) (p : BitVec 64) : Known (firstDevice m p) m p := by
  have hroom : bootTable.devCount < devMax := by decide
  refine ⟨1, (deviceRegister_registered hroom _ one_ne_zero).mpr (.inr rfl), ?_⟩
  have htext : (fun j : Fin devNameLen => (List.ofFn (fieldAt devNameLen m p)).getD j 0) =
      fieldAt devNameLen m p := by
    funext j
    simp
  rw [firstDevice, reactDevices, deviceName_register hroom, if_pos rfl, htext]
  exact (sameString_zeroPad _).symm

lemma deviceOpen_congr (hfind : t.find p m = t.find p' m') :
  (deviceOpen t p m).value = (deviceOpen t p' m').value := by
  cases hfound : t.find p' m' with
  | none => rw [deviceOpen_none hfound, deviceOpen_none (hfind.trans hfound)]
  | some i => rw [deviceOpen_some hfound, deviceOpen_some (hfind.trans hfound)]

lemma zeroPadded_of_open (hreach : deviceMachine.Reachable t)
  (hopen : (deviceOpen t p m).value.1 ≠ 0) : ZeroPadded (fieldAt devNameLen m p) := by
  cases hfind : t.find p m with
  | none =>
    rw [deviceOpen_none hfind] at hopen
    exact absurd rfl hopen
  | some i => exact zeroPadded_of_find hreach hfind

lemma open_of_known (hreach : deviceMachine.Reachable t)
  (hpad : ZeroPadded (fieldAt devNameLen m p)) (hknown : Known t m p) :
  t.Registered (deviceOpen t p m).value.1 ∧
    deviceName t (deviceOpen t p m).value.1 = fieldAt devNameLen m p := by
  obtain ⟨i, hfind⟩ := find_of_known hreach hpad hknown
  rw [deviceOpen_some hfind]
  refine ⟨Table.registered_of_find hfind, ?_⟩
  obtain ⟨_, f, hf, hagree⟩ := Access.lookup_eq_some _ _ _ _ _ hfind
  rw [Table.nameAt] at hf
  split_ifs at hf
  · cases hf
  cases hf
  exact funext fun j => hagree j j.isLt

lemma open_same_iff (hsame : SameString (fieldAt devNameLen m p) (fieldAt devNameLen m' p')) :
  (∀ t, deviceMachine.Reachable t → (deviceOpen t p m).value = (deviceOpen t p' m').value) ↔
    (ZeroPadded (fieldAt devNameLen m p) ↔ ZeroPadded (fieldAt devNameLen m' p')) := by
  constructor
  · intro hall
    constructor
    · intro hpad
      have hopen := (open_of_known (reachable_firstDevice m p) hpad (known_firstDevice m p)).1.1
      rw [hall _ (reachable_firstDevice m p)] at hopen
      exact zeroPadded_of_open (reachable_firstDevice m p) hopen
    intro hpad
    have hopen := (open_of_known (reachable_firstDevice m' p') hpad (known_firstDevice m' p')).1.1
    rw [← hall _ (reachable_firstDevice m' p')] at hopen
    exact zeroPadded_of_open (reachable_firstDevice m' p') hopen
  intro hboth t hreach
  exact deviceOpen_congr (lookup_eq_of_sameString (zeroPadded_deviceNameAt hreach) hsame hboth)

lemma open_known_iff : (∀ t, deviceMachine.Reachable t → Known t m p →
      t.Registered (deviceOpen t p m).value.1 ∧
        SameString (deviceName t (deviceOpen t p m).value.1) (fieldAt devNameLen m p)) ↔
    ZeroPadded (fieldAt devNameLen m p) := by
  constructor
  · intro hall
    have hopen := hall _ (reachable_firstDevice m p) (known_firstDevice m p)
    exact zeroPadded_of_open (reachable_firstDevice m p) hopen.1.1
  intro hpad t hreach hknown
  obtain ⟨hregistered, hname⟩ := open_of_known hreach hpad hknown
  refine ⟨hregistered, ?_⟩
  rw [hname]
  exact fun _ _ => rfl

end

open Ramfs Devices in
/-- Buffers that hold the same string get the same answers in every state exactly when both are
zero-padded or neither is. A created file or a registered device is found by its name exactly when
the buffer is zero-padded. -/
theorem names_are_strings_iff (m m' : BitVec 64 → UInt8) (p p' : BitVec 64) :
  (SameString (nameIn m p) (nameIn m' p') →
    ((∀ s, Slots.machine.Reachable s →
        (findFile s.store.toDirectory p m).value = (findFile s.store.toDirectory p' m').value) ↔
      (ZeroPadded (nameIn m p) ↔ ZeroPadded (nameIn m' p')))) ∧
  (SameString (fieldAt devNameLen m p) (fieldAt devNameLen m' p') →
    ((∀ t, deviceMachine.Reachable t →
        (deviceOpen t p m).value = (deviceOpen t p' m').value) ↔
      (ZeroPadded (fieldAt devNameLen m p) ↔ ZeroPadded (fieldAt devNameLen m' p')))) ∧
  ((∀ s, Slots.machine.Reachable s →
      (ramfsCreate s.store.toDirectory p m).value.1 = ramfsOk →
      (ramfsExists (Slots.react s (.create m p)).store p m).value = true) ↔
    ZeroPadded (nameIn m p)) ∧
  ((∀ s, Slots.machine.Reachable s → Stored s m p →
      (ramfsCreate s.store.toDirectory p m).value = (ramfsOk, s.store.toDirectory)) ↔
    ZeroPadded (nameIn m p)) ∧
  ((∀ t, deviceMachine.Reachable t → Known t m p →
      t.Registered (deviceOpen t p m).value.1 ∧
        SameString (deviceName t (deviceOpen t p m).value.1) (fieldAt devNameLen m p)) ↔
    ZeroPadded (fieldAt devNameLen m p)) :=
  ⟨find_same_iff, open_same_iff, create_exists_iff, create_stored_iff, open_known_iff⟩

def twoBuffers : BitVec 64 → UInt8 := fun a =>
  if a = 256 ∨ a = 512 then 97 else if a = 514 then 7 else 0

theorem names_are_strings_padded : (∀ s, Ramfs.Slots.machine.Reachable s →
    (Ramfs.ramfsCreate s.store.toDirectory 256 twoBuffers).value.1 = Ramfs.ramfsOk →
    (Ramfs.ramfsExists (Ramfs.Slots.react s (.create twoBuffers 256)).store 256 twoBuffers).value =
      true) ∧
  ∀ t, deviceMachine.Reachable t → Known t twoBuffers 256 →
    t.Registered (Devices.deviceOpen t 256 twoBuffers).value.1 ∧
      SameString (deviceName t (Devices.deviceOpen t 256 twoBuffers).value.1)
        (fieldAt Devices.devNameLen twoBuffers 256) :=
  ⟨(names_are_strings_iff twoBuffers twoBuffers 256 256).2.2.1.mpr (by decide),
    (names_are_strings_iff twoBuffers twoBuffers 256 256).2.2.2.2.mpr (by decide)⟩

/-- The two buffers hold the same string. The file created with the second one is found with the
first only, and creating it again makes a second file; so with the device. -/
theorem trailing_byte_hides_name :
  SameString (Ramfs.nameIn twoBuffers 256) (Ramfs.nameIn twoBuffers 512) ∧
  (Ramfs.ramfsCreate Ramfs.Slots.bootState.store.toDirectory 512 twoBuffers).value.1 =
    Ramfs.ramfsOk ∧
  (Ramfs.ramfsExists (firstFile twoBuffers 512).store 256 twoBuffers).value = true ∧
  (Ramfs.ramfsExists (firstFile twoBuffers 512).store 512 twoBuffers).value = false ∧
  (Ramfs.Slots.react (firstFile twoBuffers 512) (.create twoBuffers 512)).store.fileCount = 2 ∧
  (Devices.deviceOpen (firstDevice twoBuffers 512) 256 twoBuffers).value.1 = 1 ∧
  (Devices.deviceOpen (firstDevice twoBuffers 512) 512 twoBuffers).value.1 = 0 :=
  ⟨by decide, by decide +kernel, by decide +kernel, by decide +kernel, by decide +kernel,
    by decide +kernel, by decide +kernel⟩

end Aeos.Syscall.Names
