/-
# Rejected waits

`SYS_WAITPID` looks at its status pointer after `proc_wait` has returned. By then the process
has been reaped, so a call that is turned down because of the pointer has lost an exit status.
-/

import Aeos.Syscall.Windows

namespace Aeos.Syscall

open Lib Proc Option

def lastLook (pid : Int) : List Round → System → Option System
  | [], _ => none
  | r :: rest, s =>
    match (procWait s.proc pid r.ticks).1 with
    | .again => lastLook pid rest (r.resume { s with proc := (procWait s.proc pid r.ticks).2 })
    | .missing => some s
    | .reaped _ _ => some s

lemma procWaitLoop_cases (pid : Int) (rounds : List Round) (s : System) (m : BitVec 64 → UInt8) :
  (lastLook pid rounds s = none ∧ (procWaitLoop pid rounds s m).value.2 = .again) ∨
    (∃ look, lastLook pid rounds s = some look ∧ findPid look.proc pid = none ∧
      (procWaitLoop pid rounds s m).value = (look, .missing)) ∨
    ∃ look i, lastLook pid rounds s = some look ∧ findPid look.proc pid = some i ∧
      (look.proc.procs i).state = .zombie ∧ (procWaitLoop pid rounds s m).value =
        ({ look with proc := reap look.proc i }, .reaped pid (look.proc.procs i).exitCode) := by
  induction rounds generalizing s m with
  | nil => exact .inl ⟨rfl, rfl⟩
  | cons r rest ih =>
    rw [lastLook, procWaitLoop]
    cases hfound : findPid s.proc pid with
    | none =>
      have hlooked : procWait s.proc pid r.ticks = (.missing, s.proc) := by
        simp only [procWait, hfound]
      rw [hlooked]
      exact .inr (.inl ⟨s, rfl, hfound, rfl⟩)
    | some i =>
      by_cases hzombie : (s.proc.procs i).state = .zombie
      · have hlooked : procWait s.proc pid r.ticks =
            (.reaped pid (s.proc.procs i).exitCode, reap s.proc i) := by
          simp only [procWait, hfound, if_pos hzombie]
        rw [hlooked]
        exact .inr (.inr ⟨s, i, rfl, hfound, hzombie, rfl⟩)
      have hlooked : (procWait s.proc pid r.ticks).1 = .again := by
        simp only [procWait, hfound, if_neg hzombie]
      rw [hlooked]
      exact ih _ _

def answer : System × Result → Option (BitVec 64)
  | (_, .returned regs) => some (regs 0)
  | (_, .away) => none

/-- The call returns `-1` where with a null status pointer it would not have: an error
because of the pointer. -/
def Faults (env : Env) (s : System) (regs : Regs) (m : BitVec 64 → UInt8) : Prop :=
  answer (syscallDispatch env s regs m).value = some (-1) ∧
    answer (syscallDispatch env s (Function.update regs 1 0) m).value ≠ some (-1)

/-- The process table, the address spaces and the page allocator are as the last look
found them. -/
def LeavesProcesses (env : Env) (s : System) (regs : Regs) (m : BitVec 64 → UInt8) : Prop :=
  ∀ look, lastLook (asInt (regs 0)) env.rounds s = some look →
    (syscallDispatch env s regs m).value.1.proc.procs = look.proc.procs ∧
      (syscallDispatch env s regs m).value.1.proc.mm = look.proc.mm

/-- The wait ends with a process to collect. -/
def Collects (env : Env) (s : System) (regs : Regs) : Prop :=
  ∃ look, lastLook (asInt (regs 0)) env.rounds s = some look ∧
    findPid look.proc (asInt (regs 0)) ≠ none

/-- The status pointer is one that the call turns down. -/
def BadPointer (regs : Regs) : Prop := regs 1 ≠ 0 ∧ isUserPtr (regs 1) 4 = false

instance (regs : Regs) : Decidable (BadPointer regs) := inferInstanceAs (Decidable (_ ∧ _))

lemma ofInt_ne_neg_one {pid : Int} (hpos : 0 ≤ pid) (hsmall : pid < 2 ^ 31) :
  BitVec.ofInt 64 pid ≠ -1 := by
  intro heq
  have hint : (BitVec.ofInt 64 pid).toInt = -1 := by
    rw [heq]
    decide
  rw [BitVec.toInt_ofInt_eq_self (by decide) (by omega) (by omega)] at hint
  omega

section
variable {env : Env} {s : System} {regs : Regs} {m : BitVec 64 → UInt8}

lemma waitpid_cases (env : Env) (s : System) {regs : Regs} (m : BitVec 64 → UInt8)
  (hcall : callOf (regs 8) = some .sysWaitpid) : (lastLook (asInt (regs 0)) env.rounds s = none ∧
    answer (syscallDispatch env s regs m).value = none) ∨
  (∃ look, lastLook (asInt (regs 0)) env.rounds s = some look ∧
    findPid look.proc (asInt (regs 0)) = none ∧ (syscallDispatch env s regs m).value.1 = look ∧
    answer (syscallDispatch env s regs m).value = some (-1)) ∨
  ∃ look i, lastLook (asInt (regs 0)) env.rounds s = some look ∧
    findPid look.proc (asInt (regs 0)) = some i ∧ (look.proc.procs i).state = .zombie ∧
    (syscallDispatch env s regs m).value.1 = { look with proc := reap look.proc i } ∧
    answer (syscallDispatch env s regs m).value =
      some (if 0 ≤ asInt (regs 0) ∧ BadPointer regs then -1
        else BitVec.ofInt 64 (asInt (regs 0))) := by
  have hdispatch : syscallDispatch env s regs = dispatchWaitpid env s regs := by
    simp only [syscallDispatch, hcall]
  rw [hdispatch, dispatchWaitpid, Access.value_bind]
  rcases procWaitLoop_cases (asInt (regs 0)) env.rounds s m with
    ⟨hnone, hwaited⟩ | ⟨look, hlook, hfound, hwaited⟩ | ⟨look, i, hlook, hfound, hzombie, hwaited⟩
  · rw [hwaited]
    exact .inl ⟨hnone, rfl⟩
  · rw [hwaited]
    exact .inr (.inl ⟨look, hlook, hfound, rfl, by simp [answer, reply]⟩)
  rw [hwaited]
  refine .inr (.inr ⟨look, i, hlook, hfound, hzombie, ?_⟩)
  dsimp only
  by_cases hchecked : 0 ≤ asInt (regs 0) ∧ regs 1 ≠ 0
  · rw [if_pos hchecked]
    by_cases hptr : isUserPtr (regs 1) 4 = true
    · have hgood : ¬ (0 ≤ asInt (regs 0) ∧ BadPointer regs) := by
        rintro ⟨_, _, hbad⟩
        rw [hptr] at hbad
        cases hbad
      rw [if_pos hptr, if_neg hgood]
      simp [answer, reply]
    have hbad : 0 ≤ asInt (regs 0) ∧ BadPointer regs :=
      ⟨hchecked.1, hchecked.2, Bool.not_eq_true _ ▸ hptr⟩
    rw [if_neg hptr, if_pos hbad]
    simp [answer, reply]
  have hgood : ¬ (0 ≤ asInt (regs 0) ∧ BadPointer regs) :=
    fun hbad => hchecked ⟨hbad.1, hbad.2.1⟩
  rw [if_neg hchecked, if_neg hgood]
  simp [answer, reply]

section
variable (hcall : callOf (regs 8) = some .sysWaitpid)
include hcall

lemma faults_iff :
  Faults env s regs m ↔ BadPointer regs ∧ 0 ≤ asInt (regs 0) ∧ Collects env s regs := by
  have hcall' : callOf (Function.update regs 1 0 8) = some .sysWaitpid := hcall
  have hgood : ¬ BadPointer (Function.update regs 1 0) := fun hbad => hbad.1 rfl
  unfold Faults Collects
  rcases waitpid_cases env s m hcall with
    ⟨hnone, hanswer⟩ | ⟨look, hlook, hfound, _, hanswer⟩ | ⟨look, i, hlook, hfound, _, _, hanswer⟩
  · simp [hnone, hanswer]
  · rcases waitpid_cases env s m hcall' with
      ⟨hnone', _⟩ | ⟨_, _, _, _, hanswer'⟩ | ⟨look', i, hlook', hfound', _⟩
    · exact absurd (hlook.symm.trans hnone') (by simp)
    · rw [hanswer, hanswer']
      refine iff_of_false (fun h => h.2 rfl) ?_
      simp [hlook, hfound]
    obtain rfl : look = look' := some.inj (hlook.symm.trans hlook')
    exact absurd (hfound.symm.trans hfound') (by simp)
  rcases waitpid_cases env s m hcall' with
    ⟨hnone', _⟩ | ⟨look', hlook', hfound', _⟩ | ⟨_, _, _, _, _, _, hanswer'⟩
  · exact absurd (hlook.symm.trans hnone') (by simp)
  · obtain rfl : look = look' := some.inj (hlook.symm.trans hlook')
    exact absurd (hfound.symm.trans hfound') (by simp)
  rw [if_neg fun hbad => hgood hbad.2] at hanswer'
  rw [hanswer, hanswer']
  have hcollects : ∃ look, lastLook (asInt (regs 0)) env.rounds s = some look ∧
      findPid look.proc (asInt (regs 0)) ≠ none := ⟨look, hlook, by simp [hfound]⟩
  by_cases hbad : 0 ≤ asInt (regs 0) ∧ BadPointer regs
  · rw [if_pos hbad]
    refine iff_of_true ⟨rfl, ?_⟩ ⟨hbad.2, hbad.1, hcollects⟩
    exact fun heq => ofInt_ne_neg_one hbad.1 BitVec.toInt_lt (some.inj heq)
  rw [if_neg hbad]
  refine iff_of_false (fun h => h.2 h.1) (fun h => hbad ⟨h.2.1, h.1⟩)

lemma not_leavesProcesses (hcollects : Collects env s regs) : ¬ LeavesProcesses env s regs m := by
  obtain ⟨look, hlook, hfound⟩ := hcollects
  intro hleaves
  have hprocs := (hleaves look hlook).1
  rcases waitpid_cases env s m hcall with
    ⟨hnone, _⟩ | ⟨look', hlook', hmissing, _⟩ | ⟨look', i, hlook', _, hzombie, hfinal, _⟩
  · exact absurd (hlook.symm.trans hnone) (by simp)
  · obtain rfl : look = look' := some.inj (hlook.symm.trans hlook')
    exact hfound hmissing
  obtain rfl : look = look' := some.inj (hlook.symm.trans hlook')
  rw [hfinal] at hprocs
  have hstate := congrArg Pcb.state (congrFun hprocs i)
  simp [reap, Kernel.setProc, hzombie] at hstate

end

/-- A rejected `SYS_WAITPID` leaves the processes alone exactly when the pointer is null or a user
pointer, the pid negative, or there is nothing to collect: whenever a call is rejected, a process
has been lost. -/
theorem waitpid_rejection_harmless_iff (env : Env) (s : System) (regs : Regs)
  (m : BitVec 64 → UInt8) (hcall : callOf (regs 8) = some .sysWaitpid) :
  (Faults env s regs m → LeavesProcesses env s regs m) ↔
    ¬ (BadPointer regs ∧ 0 ≤ asInt (regs 0) ∧ Collects env s regs) := by
  rw [← faults_iff hcall]
  constructor
  · intro hharmless hfaults
    have hcollects := ((faults_iff hcall).mp hfaults).2.2
    exact not_leavesProcesses hcall hcollects (hharmless hfaults)
  intro hnot hfaults
  exact absurd hfaults hnot

end

def waitFrame (pid status : BitVec 64) : Regs :=
  fun i => if i = 8 then 21 else if i = 0 then pid else if i = 1 then status else 0

def exitedSystem : System :=
  { bootSystem with
    proc := sampleKernel.setProc 0 fun p => { p with state := .zombie, pid := 1, exitCode := 7 } }

def oneRound : Env := ⟨0, 0, [⟨⟨0, 0, 0⟩, id, id⟩]⟩

theorem waitpid_rejection_harmless_valid : callOf (waitFrame 1 0x40000000 8) = some .sysWaitpid ∧
    (Faults oneRound exitedSystem (waitFrame 1 0x40000000) (fun _ => 0) →
      LeavesProcesses oneRound exitedSystem (waitFrame 1 0x40000000) fun _ => 0) := by
  have hcall : callOf (waitFrame 1 0x40000000 8) = some .sysWaitpid := by decide
  refine ⟨hcall, (waitpid_rejection_harmless_iff oneRound exitedSystem (waitFrame 1 0x40000000)
    (fun _ => 0) hcall).mpr fun h => ?_⟩
  exact absurd h.1 (by decide)

/-- A status pointer of 1 is turned down; the process is gone, and a later correct call
does not find it any more. -/
theorem rejected_wait_loses_status :
  answer (syscallDispatch oneRound exitedSystem (waitFrame 1 1) fun _ => 0).value = some (-1) ∧
    ((syscallDispatch oneRound exitedSystem
      (waitFrame 1 1) fun _ => 0).value.1.proc.procs 0).state =
      .none ∧
    answer (syscallDispatch oneRound exitedSystem (waitFrame 1 0x40000000) fun _ => 0).value =
      some 1 ∧
    answer (syscallDispatch oneRound
      (syscallDispatch oneRound exitedSystem (waitFrame 1 1) fun _ => 0).value.1
      (waitFrame 1 0x40000000) fun _ => 0).value = some (-1) := by
  refine ⟨by decide +kernel, by decide +kernel, by decide +kernel, by decide +kernel⟩

end Aeos.Syscall
