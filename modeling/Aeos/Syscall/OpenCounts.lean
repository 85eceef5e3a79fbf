/-
# Open counts of devices

`device_open` counts an open before a descriptor is found for it, and nothing ever
counts down.
-/

import Aeos.Lib.Slots
import Aeos.Syscall.Windows
import Mathlib.Data.Fintype.Option
import Mathlib.Data.Fintype.Prod

namespace Aeos.Syscall

open Devices Lib Proc Function

def entry (k : Kernel) (place : Option (Fin maxProcs) × Fin procFdMax) : Nat :=
  match place.1 with
  | none => k.kernelFdTable place.2
  | some i => if (k.procs i).state = .alive then (k.procs i).fdTable place.2 else 0

def openEntries (k : Kernel) (dev : Nat) : Nat := tally (entry k) dev

/-- The count of every registered device is the number of its descriptors. -/
def CountsExact (s : System) : Prop :=
  ∀ dev, s.devices.Registered dev → (s.devices.device dev).openCount = openEntries s.proc dev

def CurrentCounts (k : Kernel) : Prop :=
  ∀ i, findCurrentProc k = some i → (k.procs i).state = .alive

/-- What can happen to the counts and the descriptors. -/
inductive OpenEvent
  /-- Anything in the kernel but a descriptor call. -/
  | kernel (e : Proc.Event)
  | register (name : List UInt8) (dev : Nat)
  /-- `SYS_OPEN`, with the memory the name is read from. -/
  | sysOpen (memory : BitVec 64 → UInt8) (regs : Regs)
  | sysClose (regs : Regs)

def openReact (c : Statics) (s : System) : OpenEvent → System
  | .kernel e => { s with proc := (kernelReact c s.proc e).1 }
  | .register name dev => { s with devices := (deviceRegister s.devices name dev).2 }
  | .sysOpen memory regs => (dispatchOpen s regs memory).value.1
  | .sysClose regs => (dispatchClose s regs).1

def DescriptorCall : Proc.Event → Prop
  | .fdAlloc _ => True
  | .fdClose _ => True
  | _ => False

def openAdmits (s : System) : OpenEvent → Prop
  | .kernel e => kernelAdmits s.proc e ∧ ¬ DescriptorCall e
  | .register _ dev => dev ≠ 0
  | .sysOpen _ _ => Sched.Executing s.proc.sched
  | .sysClose _ => Sched.Executing s.proc.sched

/-- From boot: no device, no process, no descriptor. -/
def openMachine (c : Statics) : Machine System OpenEvent where
  init s := s.devices.devCount = 0 ∧ (∀ i, (s.proc.procs i).state = .none) ∧
    ∀ fd, s.proc.kernelFdTable fd = 0
  enabled := openAdmits
  step := openReact c

/-- The condition on a step: an exiting process has closed everything, a device with descriptors
is not registered again, and an open gets and a close gives up a descriptor that counts. -/
def openGuard (s : System) : OpenEvent → Prop
  | .kernel (.procExit _ _) => ∀ i, findCurrentProc s.proc = some i →
      (s.proc.procs i).state = .alive → ∀ fd < procFdMax, (s.proc.procs i).fdTable fd = 0
  | .kernel _ => True
  | .register _ dev => s.devices.devCount < devMax → s.devices.Registered dev →
      openEntries s.proc dev = 0
  | .sysOpen memory regs => isUserPtrSimple (regs 0) = true →
      (s.devices.find (regs 0) memory).isSome → CurrentCounts s.proc ∧
        ∃ fd < procFdMax, currentFds s.proc fd = 0
  | .sysClose regs => CurrentCounts s.proc → 0 ≤ asInt (regs 0) →
      asInt (regs 0) < (procFdMax : Int) → currentFds s.proc (asInt (regs 0)).toNat = 0

/-! ## The current task's table -/

section
variable {k : Kernel}

lemma entry_setCurrentFds (hcounts : CurrentCounts k) : ∃ row,
  (∀ fd : Fin procFdMax, entry k (row, fd) = currentFds k fd) ∧
  ∀ fds place, entry (setCurrentFds k fds) place =
    if place.1 = row then fds place.2 else entry k place := by
  cases hfound : findCurrentProc k with
  | none =>
    refine ⟨none, fun fd => by simp [entry, currentFds, hfound], fun fds place => ?_⟩
    obtain ⟨row, fd⟩ := place
    cases row <;> simp [entry, setCurrentFds, hfound]
  | some i =>
    have hlt := (findByTask_some hfound).1
    have halive := hcounts i hfound
    refine ⟨some ⟨i, hlt⟩, fun fd => by simp [entry, currentFds, hfound, halive],
      fun fds place => ?_⟩
    obtain ⟨row, fd⟩ := place
    cases row with
    | none => simp [entry, setCurrentFds, hfound, Kernel.setProc]
    | some j =>
      by_cases hj : (j : Nat) = i
      · have hrow : j = ⟨i, hlt⟩ := Fin.ext hj
        simp [entry, setCurrentFds, hfound, Kernel.setProc, hrow, halive]
      have hrow : j ≠ ⟨i, hlt⟩ := fun h => hj (congrArg Fin.val h)
      simp [entry, setCurrentFds, hfound, Kernel.setProc, hrow, hj]

lemma entry_setCurrentFds_dead (hdead : ¬ CurrentCounts k) (fds : Nat → Nat) :
  entry (setCurrentFds k fds) = entry k := by
  obtain ⟨i, hfound, hstate⟩ : ∃ i, findCurrentProc k = some i ∧ (k.procs i).state ≠ .alive := by
    simpa [CurrentCounts] using hdead
  funext place
  obtain ⟨row, fd⟩ := place
  cases row with
  | none => simp [entry, setCurrentFds, hfound, Kernel.setProc]
  | some j =>
    by_cases hj : (j : Nat) = i
    · simp [entry, setCurrentFds, hfound, Kernel.setProc, hj, hstate]
    · simp [entry, setCurrentFds, hfound, Kernel.setProc, hj]

lemma entry_setCurrentFds_one (hcounts : CurrentCounts k) {fd : Nat} (hfd : fd < procFdMax) :
  ∃ place, entry k place = currentFds k fd ∧ ∀ dev,
    entry (setCurrentFds k (update (currentFds k) fd dev)) = update (entry k) place dev := by
  obtain ⟨row, hrow, hset⟩ := entry_setCurrentFds hcounts
  refine ⟨(row, ⟨fd, hfd⟩), hrow _, fun dev => funext fun place => ?_⟩
  obtain ⟨row', fd'⟩ := place
  rw [hset]
  by_cases hr : row' = row
  · subst hr
    by_cases hf : fd' = ⟨fd, hfd⟩
    · subst hf
      simp
    have hne : (fd' : Nat) ≠ fd := fun h => hf (Fin.ext h)
    simp [hf, hne, hrow]
  · simp [hr]

lemma entry_procFdAlloc (hcounts : CurrentCounts k)
  (hfree : ∃ fd < procFdMax, currentFds k fd = 0) (dev : Nat) : ∃ place, entry k place = 0 ∧
    entry (procFdAlloc k dev).2 = update (entry k) place dev := by
  cases hfind : (List.range procFdMax).find? fun i => currentFds k i = 0 with
  | none =>
    obtain ⟨fd, hfd, hzero⟩ := hfree
    have hnone := List.find?_eq_none.mp hfind fd (List.mem_range.mpr hfd)
    simp [hzero] at hnone
  | some fd =>
    have hfd := List.mem_range.mp (List.mem_of_find?_eq_some hfind)
    have hzero : currentFds k fd = 0 := by simpa using List.find?_some hfind
    obtain ⟨place, hplace, hset⟩ := entry_setCurrentFds_one hcounts hfd
    refine ⟨place, hplace.trans hzero, ?_⟩
    simp only [procFdAlloc, hfind]
    exact hset dev

lemma entry_procFdAlloc_lost
  (hlost : ¬ (CurrentCounts k ∧ ∃ fd < procFdMax, currentFds k fd = 0)) (dev : Nat) :
  entry (procFdAlloc k dev).2 = entry k := by
  cases hfind : (List.range procFdMax).find? fun i => currentFds k i = 0 with
  | none => simp only [procFdAlloc, hfind]
  | some fd =>
    have hfd := List.mem_range.mp (List.mem_of_find?_eq_some hfind)
    have hzero : currentFds k fd = 0 := by simpa using List.find?_some hfind
    simp only [procFdAlloc, hfind]
    exact entry_setCurrentFds_dead (fun hcounts => hlost ⟨hcounts, fd, hfd, hzero⟩) _

lemma entry_procFdClose (hcounts : CurrentCounts k) {fd : Int} (hlo : 0 ≤ fd)
  (hhi : fd < (procFdMax : Int)) : ∃ place, entry k place = currentFds k fd.toNat ∧
    entry (procFdClose k fd) = update (entry k) place 0 := by
  have hfd : fd.toNat < procFdMax := by omega
  obtain ⟨place, hplace, hset⟩ := entry_setCurrentFds_one hcounts hfd
  refine ⟨place, hplace, ?_⟩
  rw [procFdClose, if_pos ⟨hlo, hhi⟩]
  exact hset 0

lemma entry_procFdClose_lost {fd : Int}
  (hlost : ¬ (CurrentCounts k ∧ 0 ≤ fd ∧ fd < (procFdMax : Int))) :
  entry (procFdClose k fd) = entry k := by
  rw [procFdClose]
  split_ifs with hrange
  · exact entry_setCurrentFds_dead (fun hcounts => hlost ⟨hcounts, hrange⟩) _
  · rfl

end

section
variable {c : Statics} {k k' : Kernel}

lemma entry_of_others {i : Nat} (hothers : ∀ j, j ≠ i → k'.procs j = k.procs j)
  (hkernel : k'.kernelFdTable = k.kernelFdTable) (hbefore : (k.procs i).state ≠ .alive)
  (hafter : (k'.procs i).state = .alive → ∀ fd, (k'.procs i).fdTable fd = 0) :
  entry k' = entry k := by
  funext place
  obtain ⟨row, fd⟩ := place
  cases row with
  | none => simp only [entry, hkernel]
  | some j =>
    by_cases hj : (j : Nat) = i
    · simp only [entry, hj, hbefore, if_false]
      split_ifs with halive
      · exact hafter halive fd
      · rfl
    · simp only [entry, hothers j hj]

lemma entry_kernelReact {e : Proc.Event} (hcall : ¬ DescriptorCall e)
  (hexit : ∀ code ticks, e ≠ .procExit code ticks) : entry (kernelReact c k e).1 = entry k := by
  cases e with
  | spawn | yield | exit | tick | watchdogSet => rfl
  | fdAlloc | fdClose => exact absurd trivial hcall
  | procExit code ticks => exact absurd rfl (hexit code ticks)
  | spawnUser name start kstack kstackLen =>
    simp only [kernelReact, schedSpawnUser]
    split_ifs <;> rfl
  | spawnImage name image size entryOff =>
    have hcases := procSpawnImage_cases c k name image size entryOff
    simp only [kernelReact]
    generalize procSpawnImage c k name image size entryOff = result at hcases
    cases hcases with
    | refused | noMemory | noTask => rfl
    | created name pcb slot as chunk mm hfree =>
      have hnone := (freeProc_some hfree).2
      refine entry_of_others (i := pcb) (fun j hj => ?_) rfl ?_ fun _ fd => ?_
      · simp [Kernel.withProcess, hj]
      · rw [hnone]
        exact ProcState.noConfusion
      · simp [Kernel.withProcess]
  | wait pid ticks =>
    simp only [kernelReact, procWait]
    cases hfound : findPid k pid with
    | none => rfl
    | some i =>
      dsimp only
      split_ifs with hzombie
      · refine entry_of_others (i := i) (fun j hj => ?_) rfl ?_ fun halive => ?_
        · simp [reap, Kernel.setProc, hj]
        · rw [hzombie]
          exact ProcState.noConfusion
        · simp [reap, Kernel.setProc] at halive
      · rfl

lemma entry_procExit (code : Int) (ticks : Nat) (place : Option (Fin maxProcs) × Fin procFdMax) :
  entry (procExit k code ticks) place =
    if place.1.map Fin.val = findCurrentProc k ∧ place.1 ≠ none then 0 else entry k place := by
  obtain ⟨row, fd⟩ := place
  cases hfound : findCurrentProc k with
  | none =>
    have hlookup : findByTask k (Sched.schedCurrentIndex k.sched) = none := hfound
    cases row <;> simp [entry, procExit, hlookup, Kernel.dispatch]
  | some i =>
    have hlookup : findByTask k (Sched.schedCurrentIndex k.sched) = some i := hfound
    cases row with
    | none => simp [entry, procExit, hlookup, Kernel.dispatch, Kernel.setProc]
    | some j =>
      by_cases hj : (j : Nat) = i
      · simp [entry, procExit, hlookup, Kernel.dispatch, Kernel.setProc, hj]
      · simp [entry, procExit, hlookup, Kernel.dispatch, Kernel.setProc, hj]

end

/-! ## `SYS_OPEN` -/

section
variable {s : System} {memory : BitVec 64 → UInt8} {regs : Regs}

lemma dispatchOpen_missing
  (hmissing : isUserPtrSimple (regs 0) = true → s.devices.find (regs 0) memory = none) :
  (dispatchOpen s regs memory).value.1 = s := by
  rw [dispatchOpen]
  split_ifs with hptr
  · rw [Access.value_bind, deviceOpen_none (hmissing hptr)]
    rfl
  · rfl

lemma dispatchOpen_found (hptr : isUserPtrSimple (regs 0) = true) {i : Nat}
  (hfind : s.devices.find (regs 0) memory = some i) : (dispatchOpen s regs memory).value.1 =
    { s with
      devices := s.devices.opened (s.devices.devTable i)
      proc := (procFdAlloc s.proc (s.devices.devTable i)).2 } := by
  rw [dispatchOpen, if_pos hptr, Access.value_bind, deviceOpen_some hfind]
  rw [if_neg (Table.registered_of_find hfind).1]
  rfl

end

structure OpenInv (s : System) : Prop where
  exact : CountsExact s
  known : ∀ place, entry s.proc place ≠ 0 → s.devices.Registered (entry s.proc place)

namespace OpenInv

variable {c : Statics} {s : System}

section
variable (h : OpenInv s)
include h

lemma of_entry {k : Kernel} (hentry : entry k = entry s.proc) :
  OpenInv { s with proc := k } := by
  refine ⟨fun dev hdev => ?_, fun place => ?_⟩
  · rw [openEntries, hentry]
    exact h.exact dev hdev
  rw [hentry]
  exact h.known place

lemma not_exact_of_lost (k : Kernel) (place : Option (Fin maxProcs) × Fin procFdMax)
    (hused : entry s.proc place ≠ 0) (hlost : entry k place = 0)
    (hkept : ∀ q, entry k q = 0 ∨ entry k q = entry s.proc q) :
  ¬ CountsExact { s with proc := k } := by
  intro hexact
  have hdev := h.known place hused
  have hless : openEntries k (entry s.proc place) < openEntries s.proc (entry s.proc place) := by
    refine tally_lt (i := place) (fun q hq => ?_) rfl fun hsame => ?_
    · rcases hkept q with hzero | hold
      · exact absurd (hq.symm.trans hzero) hused
      · exact hold.symm.trans hq
    · exact hused (hsame.symm.trans hlost)
  have hbefore := h.exact _ hdev
  have hafter := hexact _ hdev
  dsimp only at hafter
  omega

variable {e : Proc.Event}

lemma kernel (hcall : ¬ DescriptorCall e) (hguard : openGuard s (.kernel e)) :
    OpenInv (openReact c s (.kernel e)) := by
  refine h.of_entry ?_
  by_cases hexit : ∃ code ticks, e = .procExit code ticks
  · obtain ⟨code, ticks, rfl⟩ := hexit
    funext place
    show entry (procExit s.proc code ticks) place = entry s.proc place
    rw [entry_procExit]
    split_ifs with hcur
    · -- The exiting process has nothing open.
      obtain ⟨row, fd⟩ := place
      cases row with
      | none => exact absurd rfl hcur.2
      | some i =>
        symm
        simp only [entry]
        split_ifs with halive
        · exact hguard i hcur.1.symm halive fd fd.isLt
        · rfl
    · rfl
  · exact entry_kernelReact hcall fun code ticks heq => hexit ⟨code, ticks, heq⟩

lemma kernel_loses (hguard : ¬ openGuard s (.kernel e)) :
  ¬ CountsExact (openReact c s (.kernel e)) := by
  cases e with
  | procExit code ticks =>
    simp only [openGuard, not_forall] at hguard
    obtain ⟨i, hcur, halive, fd, hfd, hused⟩ := hguard
    have hi := (findByTask_some hcur).1
    have hexit := entry_procExit (k := s.proc) code ticks
    refine h.not_exact_of_lost (procExit s.proc code ticks) (some ⟨i, hi⟩, ⟨fd, hfd⟩) ?_ ?_
      fun place => ?_
    · simpa [entry, halive] using hused
    · rw [hexit]
      simp [hcur]
    rw [hexit]
    split_ifs
    · exact .inl rfl
    · exact .inr rfl
  | _ => exact absurd trivial hguard

lemma register {name : List UInt8} {dev : Nat} (hdev : dev ≠ 0)
    (hguard : openGuard s (.register name dev)) :
  OpenInv { s with devices := (deviceRegister s.devices name dev).2 } := by
  by_cases hfull : devMax ≤ s.devices.devCount
  · rw [deviceRegister_full hfull]
    exact h
  have hroom := not_le.mp hfull
  refine ⟨fun d hd => ?_, fun place hplace => ?_⟩
  · have hd := (deviceRegister_registered hroom name hdev).mp hd
    rw [deviceRegister_openCount hroom]
    split_ifs with hnew
    · subst hnew
      symm
      by_cases hold : s.devices.Registered d
      · exact hguard hroom hold
      -- Nothing refers to a device that was not registered.
      refine tally_eq_zero.mpr fun place hplace => hold ?_
      have hknown := h.known place (by rw [hplace]; exact hdev)
      rwa [hplace] at hknown
    · exact h.exact d (hd.resolve_right hnew)
  · exact (deviceRegister_registered hroom name hdev).mpr (.inl (h.known place hplace))

end

lemma register_loses {name : List UInt8} {dev : Nat} (hguard : ¬ openGuard s (.register name dev)) :
  ¬ CountsExact { s with devices := (deviceRegister s.devices name dev).2 } := by
  simp only [openGuard, not_forall] at hguard
  obtain ⟨hroom, hdev, hused⟩ := hguard
  intro hexact
  have hzero := hexact dev ((deviceRegister_registered hroom name hdev.1).mpr (.inl hdev))
  rw [deviceRegister_openCount hroom, if_pos rfl] at hzero
  exact hused hzero.symm

section
variable (h : OpenInv s)
include h
variable {memory : BitVec 64 → UInt8} {regs : Regs}

lemma sysOpen (hguard : openGuard s (.sysOpen memory regs)) :
  OpenInv (dispatchOpen s regs memory).value.1 := by
  by_cases hmissing : isUserPtrSimple (regs 0) = true → s.devices.find (regs 0) memory = none
  · rw [dispatchOpen_missing hmissing]
    exact h
  obtain ⟨hptr, hfound⟩ := Classical.not_imp.mp hmissing
  obtain ⟨i, hfind⟩ := Option.ne_none_iff_exists'.mp hfound
  obtain ⟨hcounts, hfree⟩ := hguard hptr (by rw [hfind]; rfl)
  have hdev := Table.registered_of_find hfind
  rw [dispatchOpen_found hptr hfind]
  generalize s.devices.devTable i = dev at hdev
  obtain ⟨place, hzero, hentry⟩ := entry_procFdAlloc hcounts hfree dev
  have hbound : openEntries s.proc dev ≤ 72 := tally_le_card (entry s.proc) dev
  refine ⟨fun d hd => ?_, fun q => ?_⟩
  · have hold := h.exact d hd
    have hfresh : entry s.proc place ≠ d := by
      rw [hzero]
      exact Ne.symm hd.1
    rw [opened_openCount, openEntries, hentry]
    split_ifs with hnew
    · subst hnew
      rw [tally_update_self hfresh, hold]
      exact Nat.mod_eq_of_lt (by omega)
    rw [tally_update_of_ne hfresh (Ne.symm hnew)]
    exact hold
  rw [hentry]
  by_cases hq : q = place
  · subst hq
    rw [update_self]
    exact fun _ => hdev
  rw [update_of_ne hq]
  exact h.known q

lemma sysOpen_loses (hguard : ¬ openGuard s (.sysOpen memory regs)) :
  ¬ CountsExact (dispatchOpen s regs memory).value.1 := by
  simp only [openGuard, Classical.not_imp] at hguard
  obtain ⟨hptr, hfound, hlost⟩ := hguard
  obtain ⟨i, hfind⟩ := Option.isSome_iff_exists.mp hfound
  have hdev := Table.registered_of_find hfind
  rw [dispatchOpen_found hptr hfind]
  generalize s.devices.devTable i = dev at hdev
  intro hexact
  have hbefore := h.exact dev hdev
  have hafter := hexact dev hdev
  rw [opened_openCount, if_pos rfl, openEntries, entry_procFdAlloc_lost hlost, ← openEntries,
    hbefore] at hafter
  omega

lemma sysClose (hguard : openGuard s (.sysClose regs)) : OpenInv (dispatchClose s regs).1 := by
  refine h.of_entry ?_
  by_cases hclose : CurrentCounts s.proc ∧ 0 ≤ asInt (regs 0) ∧ asInt (regs 0) < (procFdMax : Int)
  · obtain ⟨hcounts, hlo, hhi⟩ := hclose
    obtain ⟨place, hplace, hentry⟩ := entry_procFdClose hcounts hlo hhi
    rw [hguard hcounts hlo hhi] at hplace
    rw [hentry, ← hplace, Function.update_eq_self]
  · exact entry_procFdClose_lost hclose

lemma sysClose_loses (hguard : ¬ openGuard s (.sysClose regs)) :
  ¬ CountsExact (dispatchClose s regs).1 := by
  simp only [openGuard, Classical.not_imp] at hguard
  obtain ⟨hcounts, hlo, hhi, hused⟩ := hguard
  obtain ⟨place, hplace, hentry⟩ := entry_procFdClose hcounts hlo hhi
  refine h.not_exact_of_lost (procFdClose s.proc (asInt (regs 0))) place ?_ ?_ fun q => ?_
  · rwa [hplace]
  · rw [hentry, update_self]
  rw [hentry]
  by_cases hq : q = place
  · subst hq
    exact .inl (update_self _ _ _)
  · exact .inr (update_of_ne hq _ _)

end

lemma of_init (hinit : (openMachine c).init s) : OpenInv s := by
  obtain ⟨hcount, hprocs, hkernel⟩ := hinit
  refine ⟨fun dev hdev => ?_, fun place hplace => absurd ?_ hplace⟩
  · obtain ⟨_, i, hi, _⟩ := hdev
    rw [hcount] at hi
    exact absurd hi (Nat.not_lt_zero i)
  obtain ⟨row, fd⟩ := place
  cases row with
  | none => exact hkernel fd
  | some i => simp [entry, hprocs]

end OpenInv

/-- Along every run from boot, the count of every registered device is the number of its
descriptors throughout, if and only if every step meets the condition. -/
theorem open_counts_exact_iff {c : Statics} {s t : System} {es : List OpenEvent}
  (hinit : (openMachine c).init s) (hrun : (openMachine c).Run s es t) :
  (openMachine c).Throughout CountsExact s es ↔
    ((openMachine c).restrict openGuard).Run s es t := by
  refine hrun.throughout_iff (fun _ h => h.exact) ?_ ?_ (OpenInv.of_init hinit)
  · intro s e h henabled hguard
    cases e with
    | kernel e => exact h.kernel henabled.2 hguard
    | register name dev => exact h.register henabled hguard
    | sysOpen memory regs => exact h.sysOpen hguard
    | sysClose regs => exact h.sysClose hguard
  intro s e h _ hguard
  cases e with
  | kernel e => exact h.kernel_loses hguard
  | register name dev => exact OpenInv.register_loses hguard
  | sysOpen memory regs => exact h.sysOpen_loses hguard
  | sysClose regs => exact h.sysClose_loses hguard

def namePointer : Regs := fun _ => 0x40000000

def opensOnce : List OpenEvent := [.register [] 1, .sysOpen (fun _ => 0) namePointer]

def opensAndCloses : List OpenEvent := opensOnce ++ [.sysClose fun _ => 0]

lemma bootSystem_init : (openMachine sampleStatics).init bootSystem :=
  ⟨rfl, fun _ => rfl, fun _ => rfl⟩

lemma opensAndCloses_run : (openMachine sampleStatics).Run bootSystem opensAndCloses
  (opensAndCloses.foldl (openReact sampleStatics) bootSystem) := by
  refine .cons ?_ (.cons ?_ (.cons ?_ (.nil _)))
  · exact one_ne_zero
  · show Sched.Executing _
    decide +kernel
  show Sched.Executing _
  decide +kernel

theorem open_counts_exact_opened :
  (openMachine sampleStatics).Throughout CountsExact bootSystem opensOnce ∧
    openEntries (opensOnce.foldl (openReact sampleStatics) bootSystem).proc 1 = 1 := by
  have hrun : (openMachine sampleStatics).Run bootSystem opensOnce
      (opensOnce.foldl (openReact sampleStatics) bootSystem) := by
    refine .cons ?_ (.cons ?_ (.nil _))
    · exact one_ne_zero
    show Sched.Executing _
    decide +kernel
  refine ⟨(open_counts_exact_iff bootSystem_init hrun).mpr ?_, by decide +kernel⟩
  refine .cons ⟨one_ne_zero, ?_⟩ (.cons ⟨?_, ?_⟩ (.nil _))
  · intro _ hregistered
    obtain ⟨_, i, hi, _⟩ := hregistered
    exact absurd hi (Nat.not_lt_zero i)
  · show Sched.Executing _
    decide +kernel
  intro _ _
  refine ⟨fun i hi => ?_, 0, by decide, by decide +kernel⟩
  have hnone :
      findCurrentProc (openReact sampleStatics bootSystem (.register [] 1)).proc = none := by
    decide +kernel
  exact absurd (hnone.symm.trans hi) (by simp)

/-- After an open and a close the device has one open and no descriptor. -/
theorem closed_device_counted : ∃ s t es, (openMachine sampleStatics).init s ∧
  (openMachine sampleStatics).Run s es t ∧ t.devices.Registered 1 ∧
    (t.devices.device 1).openCount = 1 ∧ openEntries t.proc 1 = 0 :=
  ⟨bootSystem, _, opensAndCloses, bootSystem_init, opensAndCloses_run,
    ⟨one_ne_zero, 0, by decide +kernel, by decide +kernel⟩, by decide +kernel, by decide +kernel⟩

end Aeos.Syscall
