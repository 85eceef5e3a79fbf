/-
# Where system calls reach

A caller's pointer may lead into the flat map of RAM or into the user window of a
process.
-/

import Aeos.Proc.Memory
import Aeos.Syscall.Model

namespace Aeos.Syscall

open Devices Ipc Lib Mem Proc Ramfs Sched BitVec

/-- In `[RAM_START, RAM_END)` or in `[USER_VA_BASE, USER_VA_STACK)`. -/
def InUserWindow (a : BitVec 64) : Prop :=
  (ramStart ≤ a.toNat ∧ a.toNat < ramEnd) ∨ (userVaBase ≤ a.toNat ∧ a.toNat < userVaStack)

instance : DecidablePred InUserWindow := fun _ => inferInstanceAs (Decidable (_ ∨ _))

def room (a : BitVec 64) : Nat :=
  if ramStart ≤ a.toNat ∧ a.toNat < ramEnd then ramEnd - a.toNat
  else if userVaBase ≤ a.toNat ∧ a.toNat < userVaStack then userVaStack - a.toNat
  else 0

/-! ## Windows -/

section
variable {p : BitVec 64}

lemma toNat_place {j : Nat} (h : p.toNat + j < 2 ^ 64) : (place p j).toNat = p.toNat + j := by
  rw [place, toNat_add, toNat_ofNat, Nat.add_mod_mod, Nat.mod_eq_of_lt h]

lemma room_cases (p : BitVec 64) : (ramStart ≤ p.toNat ∧ p.toNat + room p = ramEnd ∧ 0 < room p) ∨
    (userVaBase ≤ p.toNat ∧ p.toNat + room p = userVaStack ∧ 0 < room p) ∨
    (¬ InUserWindow p ∧ room p = 0) := by
  unfold room InUserWindow
  split_ifs <;> omega

lemma room_le (p : BitVec 64) : p.toNat + room p < 2 ^ 64 := by
  rcases room_cases p with ⟨-, hend, -⟩ | ⟨-, hend, -⟩ | ⟨-, hzero⟩
  · rw [hend]
    decide
  · rw [hend]
    decide
  rw [hzero]
  exact p.isLt

lemma inUserWindow_place {j : Nat} (hj : j < room p) : InUserWindow (place p j) := by
  have hword := room_le p
  rw [InUserWindow, toNat_place (by omega)]
  rcases room_cases p with h | h | h <;> omega

lemma not_inUserWindow_place_room (p : BitVec 64) : ¬ InUserWindow (place p (room p)) := by
  have hword := room_le p
  rcases room_cases p with ⟨hlow, hend, hpos⟩ | ⟨hlow, hend, hpos⟩ | ⟨hout, hzero⟩
  · rw [InUserWindow, toNat_place hword, hend]
    decide
  · rw [InUserWindow, toNat_place hword, hend]
    decide
  rw [hzero]
  simpa [place] using hout

lemma reads_stay_iff {limit : Nat} {Q : Nat → Prop} (hQ : ∀ i j, i ≤ j → Q j → Q i) :
  (∀ j < limit, Q j → InUserWindow (place p j)) ↔ limit ≤ room p ∨ ¬ Q (room p) := by
  constructor
  · intro h
    by_cases hlong : limit ≤ room p
    · exact Or.inl hlong
    right
    intro hroom
    exact not_inUserWindow_place_room p (h (room p) (Nat.not_le.mp hlong) hroom)
  intro h j hj hreads
  apply inUserWindow_place
  by_contra hout
  have hle : room p ≤ j := Nat.not_lt.mp hout
  rcases h with hlong | hstop
  · omega
  · exact hstop (hQ (room p) j hle hreads)

variable {len : BitVec 32}

lemma isUserPtr_iff : isUserPtr p len = true ↔ (ramStart ≤ p.toNat ∧ p.toNat + len.toNat ≤ ramEnd) ∨
      (userVaBase ≤ p.toNat ∧ p.toNat + len.toNat ≤ userVaStack) := by
  have hbounds : 0 < ramStart ∧ 0 < userVaBase ∧ ramEnd < 2 ^ 64 ∧ userVaStack < 2 ^ 64 := by decide
  have hstop : (p + len.setWidth 64).toNat = (p.toNat + len.toNat) % 2 ^ 64 := by
    rw [toNat_add, toNat_setWidth, Nat.add_mod_mod]
  simp only [isUserPtr, hstop]
  split_ifs with hnull hwrap hram huser
  · apply iff_of_false not_false
    omega
  · apply iff_of_false not_false
    omega
  · apply iff_of_true rfl
    omega
  · apply iff_of_true rfl
    omega
  apply iff_of_false not_false
  omega

lemma le_room_of_isUserPtr (h : isUserPtr p len = true) : len.toNat ≤ room p := by
  rw [isUserPtr_iff] at h
  have hapart : ramEnd ≤ userVaBase := by decide
  unfold room
  split_ifs <;> omega

lemma isUserPtrSimple_iff : isUserPtrSimple p = true ↔ 0 < room p := by
  have hone : (1 : BitVec 32).toNat = 1 := rfl
  rw [isUserPtrSimple, isUserPtr_iff, hone]
  unfold room
  split_ifs <;> omega

lemma inUserWindow_of_isUserPtr {len : BitVec 32} (h : isUserPtr p len = true) :
  ∀ j < len.toNat, InUserWindow (place p j) := by
  intro j hj
  exact inUserWindow_place (Nat.lt_of_lt_of_le hj (le_room_of_isUserPtr h))

end

section
variable {p : BitVec 64} {m : BitVec 64 → UInt8}

def EndsInWindow (m : BitVec 64 → UInt8) (p : BitVec 64) : Prop :=
  ∃ k < room p, m (place p k) = 0

def ToldApart (m : BitVec 64 → UInt8) (p : BitVec 64) (names : Nat → Option (Nat → UInt8))
  (size : Nat) : Prop :=
  ∀ i < size, ∀ field ∈ names i, ∃ k < room p, field k ≠ m (place p k)

lemma reads_to_nul_iff {limit : Nat} :
  (∀ j < limit, (∀ k < j, m (place p k) ≠ 0) → InUserWindow (place p j)) ↔
    limit ≤ room p ∨ EndsInWindow m p := by
  rw [reads_stay_iff]
  · simp [EndsInWindow]
  intro i j hij hj k hk
  exact hj k (Nat.lt_of_lt_of_le hk hij)

lemma compares_iff {limit : Nat} {field : Nat → UInt8} :
  (∀ j < limit, (∀ k < j, field k = m (place p k)) → InUserWindow (place p j)) ↔
    limit ≤ room p ∨ ∃ k < room p, field k ≠ m (place p k) := by
  rw [reads_stay_iff]
  · simp
  intro i j hij hj k hk
  exact hj k (Nat.lt_of_lt_of_le hk hij)

lemma lookup_in_window_iff {names : Nat → Option (Nat → UInt8)} {len size : Nat} :
  (∀ i < size, ∀ field ∈ names i, ∀ j < len,
      (∀ k < j, field k = m (place p k)) → InUserWindow (place p j)) ↔
    len ≤ room p ∨ ToldApart m p names size := by
  simp only [compares_iff]
  constructor
  · intro h
    by_cases hlong : len ≤ room p
    · exact Or.inl hlong
    right
    intro i hi field hfield
    exact (h i hi field hfield).resolve_left hlong
  rintro (hlong | happart) i hi field hfield
  · exact Or.inl hlong
  · exact Or.inr (happart i hi field hfield)

end

section
variable {s : System} {regs : Regs} {m : BitVec 64 → UInt8}

/-- Strings that are read to their end must end inside their window unless it is long enough, and
those that are compared must be told apart inside it. -/
def StringsFit (s : System) (regs : Regs) (m : BitVec 64 → UInt8) : Prop :=
  match callOf (regs 8) with
  | some .sysPrint =>
    (regs 0).toNat < 0x40000000 ∨ 256 ≤ room (regs 0) ∨ EndsInWindow m (regs 0)
  | some .sysOpen =>
    room (regs 0) = 0 ∨ devNameLen ≤ room (regs 0) ∨
      ToldApart m (regs 0) s.devices.nameAt s.devices.devCount
  | some .sysDelete =>
    room (regs 0) = 0 ∨ ramfsMaxName ≤ room (regs 0) ∨
      ToldApart m (regs 0) s.ramfs.nameAt ramfsMaxFiles
  | some .sysCreate =>
    room (regs 0) = 0 ∨ ramfsMaxName ≤ room (regs 0) ∨
      ToldApart m (regs 0) s.ramfs.nameAt ramfsMaxFiles ∧
        ((∀ i < ramfsMaxFiles, (s.ramfs.files i).inUse) ∨ EndsInWindow m (regs 0))
  | _ => True

lemma dispatchPrint_iff : Access.Stays InUserWindow (dispatchPrint s regs) m ↔
    (regs 0).toNat < 0x40000000 ∨ 256 ≤ room (regs 0) ∨ EndsInWindow m (regs 0) := by
  have hbase : 0x40000000 ≤ userVaBase := by decide
  unfold dispatchPrint
  by_cases hlow : (regs 0).toNat < 0x40000000
  · rw [if_neg (by omega)]
    exact iff_of_true (Access.stays_pure _) (Or.inl hlow)
  rw [if_pos (by omega), Access.stays_bind, Access.stays_scan]
  simp only [decide_eq_true_eq, hlow, false_or, Access.stays_pure, and_true]
  exact reads_to_nul_iff

lemma dispatchOpen_iff : Access.Stays InUserWindow (dispatchOpen s regs) m ↔
    room (regs 0) = 0 ∨ devNameLen ≤ room (regs 0) ∨
      ToldApart m (regs 0) s.devices.nameAt s.devices.devCount := by
  unfold dispatchOpen
  by_cases hptr : isUserPtrSimple (regs 0) = true
  · have hroom := isUserPtrSimple_iff.mp hptr
    rw [if_pos hptr, Access.stays_bind, stays_deviceOpen, lookup_in_window_iff,
      or_iff_right (Nat.ne_of_gt hroom)]
    apply and_iff_left
    split <;> exact Access.stays_pure _
  rw [if_neg hptr]
  have hroom : room (regs 0) = 0 := by
    rw [isUserPtrSimple_iff] at hptr
    omega
  exact iff_of_true (Access.stays_pure _) (Or.inl hroom)

lemma dispatchDirectory_iff {op : Directory → BitVec 64 → Access 64 UInt8 (Int × Directory)} :
  Access.Stays InUserWindow (dispatchDirectory op s regs) m ↔
    room (regs 0) = 0 ∨ Access.Stays InUserWindow (op s.ramfs (regs 0)) m := by
  unfold dispatchDirectory
  by_cases hptr : isUserPtrSimple (regs 0) = true
  · have hroom := isUserPtrSimple_iff.mp hptr
    rw [if_pos hptr, Access.stays_bind, or_iff_right (Nat.ne_of_gt hroom)]
    exact and_iff_left (Access.stays_pure _)
  rw [if_neg hptr]
  have hroom : room (regs 0) = 0 := by
    rw [isUserPtrSimple_iff] at hptr
    omega
  exact iff_of_true (Access.stays_pure _) (Or.inl hroom)

variable {d : Directory} {name : BitVec 64}

lemma findFile_iff : Access.Stays InUserWindow (findFile d name) m ↔
    ramfsMaxName ≤ room name ∨ ToldApart m name d.nameAt ramfsMaxFiles := by
  rw [stays_findFile, lookup_in_window_iff]

lemma isSome_freeSlot : (freeSlot d).isSome ↔ ¬ ∀ i < ramfsMaxFiles, (d.files i).inUse := by
  simp [freeSlot]

lemma ramfsCreate_iff : Access.Stays InUserWindow (ramfsCreate d name) m ↔
    ramfsMaxName ≤ room name ∨ ToldApart m name d.nameAt ramfsMaxFiles ∧
        ((∀ i < ramfsMaxFiles, (d.files i).inUse) ∨ EndsInWindow m name) := by
  rw [stays_ramfsCreate, findFile_iff, stays_copyName, reads_to_nul_iff, isSome_freeSlot]
  by_cases hlong : ramfsMaxName ≤ room name
  · simp [hlong]
  simp only [hlong, false_or]
  apply and_congr_right
  intro happart
  have hnew : (findFile d name m).value = none := by
    apply (Access.lookup_eq_none d.nameAt name ramfsMaxName ramfsMaxFiles m).mpr
    intro i hi field hfield
    obtain ⟨k, hk, hdiffer⟩ := happart i hi field hfield
    exact ⟨k, by omega, hdiffer⟩
  tauto

lemma stays_dispatchTransfer {op : Table → Nat → BitVec 64 → BitVec 32 → Access 64 UInt8 Int}
  (hop : ∀ t dev buf len m, Access.Stays (InBuffer buf len) (op t dev buf len) m) :
  Access.Stays InUserWindow (dispatchTransfer op s regs) m := by
  unfold dispatchTransfer
  dsimp only
  split_ifs with hptr hnull
  · exact Access.stays_pure _
  · rw [Access.stays_bind]
    refine ⟨?_, Access.stays_pure _⟩
    refine (hop _ _ _ _ m).mono ?_
    rintro a ⟨j, hj, rfl⟩
    exact inUserWindow_of_isUserPtr hptr j hj
  · exact Access.stays_pure _

lemma stays_dispatchIoctl : Access.Stays InUserWindow (dispatchIoctl s regs) m := by
  unfold dispatchIoctl
  dsimp only
  split_ifs with hnull
  · exact Access.stays_pure _
  rw [Access.stays_bind]
  exact ⟨stays_deviceIoctl _ _ _ _, Access.stays_pure _⟩

lemma stays_dispatchIpcSend : Access.Stays InUserWindow (dispatchIpcSend s regs) m := by
  unfold dispatchIpcSend
  split_ifs with hbad
  · exact Access.stays_pure _
  rw [Access.stays_bind]
  refine ⟨?_, Access.stays_pure _⟩
  apply stays_ipcSend
  intro j hj
  have hptr : isUserPtr (regs 1) (asU32 (regs 2)) = true := by
    by_contra hno
    exact hbad ⟨by omega, Bool.not_eq_true _ ▸ hno⟩
  exact inUserWindow_of_isUserPtr hptr j hj

lemma stays_dispatchIpcRecv : Access.Stays InUserWindow (dispatchIpcRecv s regs) m := by
  -- An output pointer is null or was checked for a word.
  have hword : ∀ p : BitVec 64, ¬ (p ≠ 0 ∧ isUserPtr p 4 = false) →
      p ≠ 0 → ∀ j < 4, InUserWindow (place p j) := by
    intro p hgood hnonnull
    apply @inUserWindow_of_isUserPtr p 4
    by_contra hno
    exact hgood ⟨hnonnull, Bool.not_eq_true _ ▸ hno⟩
  unfold dispatchIpcRecv
  split_ifs with hbuf hlen hsender
  · exact Access.stays_pure _
  · exact Access.stays_pure _
  · exact Access.stays_pure _
  rw [Access.stays_bind]
  refine ⟨?_, Access.stays_pure _⟩
  apply stays_ipcRecv
  · exact inUserWindow_of_isUserPtr (Bool.not_eq_false _ ▸ hbuf)
  · exact hword (regs 2) hlen
  · exact hword (regs 3) hsender

lemma stays_dispatchYield {env : Env} : Access.Stays InUserWindow (dispatchYield env s regs) m := by
  unfold dispatchYield
  cases env.rounds with
  | nil => exact Access.stays_pure _
  | cons r rest =>
    rw [Access.stays_bind]
    exact ⟨Access.stays_meanwhile _, Access.stays_pure _⟩

lemma stays_procWaitLoop {P : BitVec 64 → Prop} (pid : Int) (rounds : List Round) :
  Access.Stays P (procWaitLoop pid rounds s) m := by
  induction rounds generalizing s m with
  | nil => exact Access.stays_pure _
  | cons r rest ih =>
    rw [procWaitLoop]
    cases (procWait s.proc pid r.ticks).1 with
    | again =>
      rw [Access.stays_bind]
      exact ⟨Access.stays_meanwhile _, ih⟩
    | _ => exact Access.stays_pure _

lemma stays_dispatchWaitpid {env : Env} :
  Access.Stays InUserWindow (dispatchWaitpid env s regs) m := by
  rw [dispatchWaitpid, Access.stays_bind]
  refine ⟨stays_procWaitLoop _ _, ?_⟩
  generalize (procWaitLoop (asInt (regs 0)) env.rounds s m).value = waited
  cases waited.2 with
  | again => exact Access.stays_pure _
  | missing => exact Access.stays_pure _
  | reaped pid code =>
    dsimp only
    split_ifs with hstatus hptr
    · rw [Access.stays_bind]
      refine ⟨?_, Access.stays_pure _⟩
      apply Access.stays_storeWord
      exact inUserWindow_of_isUserPtr hptr
    · exact Access.stays_pure _
    · exact Access.stays_pure _

end

/-- For every register frame, state and memory, whatever the rest of the machine does meanwhile,
the kernel touches only bytes of the two windows through the caller's registers exactly when the
call's strings fit. -/
theorem dispatch_in_windows_iff (env : Env) (s : System) (regs : Regs) (m : BitVec 64 → UInt8) :
  (∀ a ∈ (syscallDispatch env s regs m).touched, InUserWindow a) ↔ StringsFit s regs m := by
  show Access.Stays InUserWindow (syscallDispatch env s regs) m ↔ _
  unfold syscallDispatch StringsFit
  cases callOf (regs 8) with
  | none => exact iff_of_true (Access.stays_pure _) trivial
  | some call =>
    cases call with
    | sysPrint => exact dispatchPrint_iff
    | sysOpen => exact dispatchOpen_iff
    | sysDelete =>
      rw [dispatchDirectory_iff, stays_ramfsDelete, findFile_iff]
    | sysCreate =>
      rw [dispatchDirectory_iff, ramfsCreate_iff]
    | sysRead =>
      refine iff_of_true (stays_dispatchTransfer ?_) trivial
      intro t dev buf len m
      exact stays_deviceRead t dev buf len
    | sysWrite =>
      refine iff_of_true (stays_dispatchTransfer ?_) trivial
      intro t dev buf len m
      exact stays_deviceWrite t dev buf len
    | sysIoctl => exact iff_of_true stays_dispatchIoctl trivial
    | sysIpcSend => exact iff_of_true stays_dispatchIpcSend trivial
    | sysIpcRecv => exact iff_of_true stays_dispatchIpcRecv trivial
    | sysYield => exact iff_of_true stays_dispatchYield trivial
    | sysWaitpid => exact iff_of_true stays_dispatchWaitpid trivial
    | _ => exact iff_of_true (Access.stays_pure _) trivial

def bootSystem : System where
  proc := sampleKernel
  devices := ⟨fun _ => 0, 0, fun _ =>
    ⟨fun _ => 0, 0, none, none, none, none, nofun, nofun, nofun⟩⟩
  ramfs := ⟨fun _ => ⟨fun _ => 0, 0, false⟩, 0⟩
  queues := fun _ => ⟨0, 0, 0, false, fun _ => ⟨fun _ => 0, 0, 0, Nat.zero_le _⟩, 0, 0, 0⟩

def oneArgument (num x0 : BitVec 64) : Regs :=
  fun i => if i = 8 then num else if i = 0 then x0 else 0

/-- `SYS_PRINT` of an address past RAM, and `SYS_CREATE` of a name whose first byte
is the last one of the user window, read outside both windows. -/
theorem strings_leave_windows :
  (∃ a ∈ (syscallDispatch ⟨0, 0, []⟩ bootSystem (oneArgument 1 0x48000000)
      fun _ => 0).touched, ¬ InUserWindow a) ∧
    ∃ a ∈ (syscallDispatch ⟨0, 0, []⟩ bootSystem (oneArgument 10 0x80001fffff)
      fun _ => 0x61).touched, ¬ InUserWindow a := by
  constructor
  · exact ⟨0x48000000, by decide +kernel, by decide⟩
  · exact ⟨0x8000200000, by decide +kernel, by decide⟩

end Aeos.Syscall
