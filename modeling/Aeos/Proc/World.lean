/-
# What a kernel event can do

Task and process creation, yields, exits, reaping, ticks and descriptor calls in any order.
`Move` lists every way one event can change the kernel; its properties are case analyses over
it. A `World` adds which process each task was created for, which pids were handed out and which
were reaped.
-/

import Aeos.Proc.Model
import Aeos.Mem.Frames
import Aeos.Sched.OneRunner

namespace Aeos.Proc

open Lib Mem Sched

/-- One call into the kernel, or one timer tick. -/
inductive Event
  | spawn (name : List UInt8) (entry stack stackLen : Nat)
  | spawnUser (name : List UInt8) (entry kstack kstackLen : Nat)
  | spawnImage (name : Option (List UInt8)) (image size entryOff : Nat)
  | yield (ticks : YieldTicks)
  | exit (ticks : Nat)
  | procExit (code : Int) (ticks : Nat)
  | wait (pid : Int) (ticks : YieldTicks)
  | fdAlloc (dev : Nat)
  | fdClose (fd : Int)
  | tick
  | watchdogSet (limit : UInt32)

def Event.creates : Event → Bool
  | .spawnImage .. => true
  | _ => false

inductive Outcome
  | quiet
  /-- A kernel thread or legacy user task was created in this slot. -/
  | task (slot : Nat)
  /-- A process was created: the slot of its task, its table entry, its pid. -/
  | process (slot pcb : Nat) (pid : Int)
  /-- `proc_wait` returned this pid. -/
  | reaped (pid : Int)

def taskOutcome : Option Nat → Outcome
  | some slot => .task slot
  | none => .quiet

def imageOutcome (k : Kernel) (pid : Int) : Outcome :=
  match slotAlloc k.sched, freeProc k with
  | some slot, some pcb => if pid = -1 then .quiet else .process slot pcb pid
  | _, _ => .quiet

def waitOutcome : WaitResult → Outcome
  | .reaped pid _ => .reaped pid
  | _ => .quiet

def kernelReact (c : Statics) (k : Kernel) : Event → Kernel × Outcome
  | .spawn name entry stack stackLen =>
    let r := schedSpawn k.sched name entry stack stackLen
    ({ k with sched := r.2 }, taskOutcome r.1)
  | .spawnUser name entry kstack kstackLen =>
    let r := schedSpawnUser c k name entry kstack kstackLen
    (r.2, taskOutcome r.1)
  | .spawnImage name image size entryOff =>
    let r := procSpawnImage c k name image size entryOff
    (r.2, imageOutcome k r.1)
  | .yield ticks => (k.dispatch (schedYield k.sched ticks), .quiet)
  | .exit ticks => (k.dispatch (schedExit k.sched ticks), .quiet)
  | .procExit code ticks => (procExit k code ticks, .quiet)
  | .wait pid ticks =>
    let r := procWait k pid ticks
    (r.2, waitOutcome r.1)
  | .fdAlloc dev => ((procFdAlloc k dev).2, .quiet)
  | .fdClose fd => (procFdClose k fd, .quiet)
  | .tick => ({ k with sched := schedOnTick k.sched }, .quiet)
  | .watchdogSet limit => ({ k with sched := schedWatchdogSet k.sched limit }, .quiet)

def kernelAdmits (k : Kernel) : Event → Prop
  | .tick => True
  | _ => Executing k.sched

instance (k : Kernel) (e : Event) : Decidable (kernelAdmits k e) :=
  match e with
  | .tick => .isTrue trivial
  | .spawn .. | .spawnUser .. | .spawnImage .. | .yield .. | .exit .. | .procExit .. | .wait ..
  | .fdAlloc .. | .fdClose .. | .watchdogSet .. => inferInstanceAs (Decidable (Executing k.sched))

/-! ## Moves -/

def SamePcb (p q : Pcb) : Prop :=
  q.state = p.state ∧ q.pid = p.pid ∧ q.taskIdx = p.taskIdx ∧ q.as = p.as

lemma SamePcb.refl (p : Pcb) : SamePcb p p := ⟨rfl, rfl, rfl, rfl⟩

def SameAs (s t : Sched.State) : Prop := ∀ i, (t.tasks i).as = (s.tasks i).as

/-- The slot holds a task that runs or can run. -/
def Live (v : View) (i : Nat) : Prop := v.st i = .ready ∨ v.st i = .running

variable {v : View} {slot i : Nat} {k : Kernel}

lemma live_set_ready : Live (v.set slot .ready) i ↔ i = slot ∨ Live v i := by
  by_cases hi : i = slot
  · subst hi
    simp [Live]
  · simp [Live, View.set_st_of_ne _ _ hi, hi]

lemma live_of_spawned {v' : View} (hview : v' = v.set slot .ready) (hne : i ≠ slot)
  (hlive : Live v' i) : Live v i := by
  rw [hview, live_set_ready] at hlive
  exact hlive.resolve_left hne

lemma live_set_finished : Live (v.set slot .finished) i ↔ i ≠ slot ∧ Live v i := by
  by_cases hi : i = slot
  · subst hi
    simp [Live]
  · simp [Live, View.set_st_of_ne _ _ hi, hi]

lemma live_handTo {next : Nat} (hready : v.st next = .ready) :
  Live (v.handTo next) i ↔ Live v i := by
  by_cases hi : i = next
  · subst hi
    simp [Live, hready]
  · simp [Live, View.handTo_st_of_ne _ hi]

lemma live_of_handed {cur next : Nat} (hlt : cur < maxTasks) (hrun : v.st cur = .running)
  (hnext : v.next cur = some next) (hi : Live ((v.set cur .ready).handTo next) i) : Live v i := by
  have hready := (View.next_some hlt hnext).2
  have hne : next ≠ cur := by
    rintro rfl
    rw [hrun] at hready
    cases hready
  rw [live_handTo (by rwa [View.set_st_of_ne _ _ hne]), live_set_ready] at hi
  rcases hi with rfl | hi
  · exact .inr hrun
  · exact hi

def switchedMm (k : Kernel) (prev next : Nat) : Mm Pmm :=
  if (k.sched.tasks prev).as ≠ (k.sched.tasks next).as then
    asSwitch k.mm (k.sched.tasks next).as
  else k.mm

def Ended (k k' : Kernel) : Prop :=
  k'.procs = k.procs ∨ ∃ i, findCurrentProc k = some i ∧
    (∀ j, j ≠ i → k'.procs j = k.procs j) ∧
    SamePcb { k.procs i with state := .zombie } (k'.procs i)

lemma used_of_cleared {procs procs' : Nat → Pcb} (hprocs : ∀ j, j ≠ i → procs' j = procs j)
  (hclear : (procs' i).state = .none) {p : Nat} (hp : (procs' p).state ≠ .none) :
  p ≠ i ∧ (procs p).state ≠ .none ∧ procs' p = procs p := by
  have hpi : p ≠ i := by
    rintro rfl
    exact hp hclear
  rw [hprocs p hpi] at hp
  exact ⟨hpi, hp, hprocs p hpi⟩

inductive ImageSpawn (c : Statics) (k : Kernel) (entryOff : Nat) : Int × Kernel → Prop
  /-- Bad arguments, or no free table entry. -/
  | refused : ImageSpawn c k entryOff (-1, k)
  | noMemory (mm : Mm Pmm) (hbuild : buildSpace c.toKernelTables k.mm = (none, mm)) :
      ImageSpawn c k entryOff (-1, { k with mm := mm })
  | noTask (as chunk : Nat) (mm : Mm Pmm)
      (hbuild : buildSpace c.toKernelTables k.mm = (some (as, chunk), mm)) :
      ImageSpawn c k entryOff (-1, { k with mm := releaseSpace mm as chunk })
  | created (name : List UInt8) (pcb slot as chunk : Nat) (mm : Mm Pmm)
      (hfree : freeProc k = some pcb)
      (hbuild : buildSpace c.toKernelTables k.mm = (some (as, chunk), mm))
      (halloc : slotAlloc k.sched = some slot) :
      ImageSpawn c k entryOff (k.nextPid, k.withProcess
        (k.sched.setTask slot fun t => { taskSetup name t with
          as := as, pid := k.nextPid, uentry := userVaBase + entryOff, usp := userSp })
        mm name pcb slot as)

lemma procSpawnImage_cases (c : Statics) (k : Kernel) (name : Option (List UInt8))
  (image size entryOff : Nat) :
  ImageSpawn c k entryOff (procSpawnImage c k name image size entryOff) := by
  unfold procSpawnImage
  cases name with
  | none => exact .refused
  | some name =>
    split_ifs with hargs
    · exact .refused
    cases hfree : freeProc k with
    | none => exact .refused
    | some pcb =>
      rcases hbuild : buildSpace c.toKernelTables k.mm with ⟨_ | ⟨as, chunk⟩, mm⟩
      · exact .noMemory mm hbuild
      rcases spawnSlot_cases k.sched
          (spawnUserArgs (userVaBase + entryOff) userSp
            (c.kstacks + pcb * procKstackSize) procKstackSize)
          (fun t => { taskSetup name t with
            as := as, pid := k.nextPid, uentry := userVaBase + entryOff,
            usp := userSp }) with heq | ⟨slot, halloc, heq⟩
      · simp only [schedSpawnUserTask, heq]
        exact .noTask as chunk mm hbuild
      simp only [schedSpawnUserTask, heq]
      exact .created name pcb slot as chunk mm hfree hbuild halloc

lemma imageOutcome_failed (k : Kernel) : imageOutcome k (-1) = .quiet := by
  simp only [imageOutcome, if_true]
  split <;> rfl

inductive Move (c : Statics) (k : Kernel) : Kernel → Outcome → Prop
  | quiet {k' : Kernel} (hview : k'.sched.view = k.sched.view) (has : SameAs k.sched k'.sched)
      (hprocs : ∀ i, SamePcb (k.procs i) (k'.procs i)) (hmm : k'.mm = k.mm) :
      Move c k k' .quiet
  | task {k' : Kernel} (slot : Nat) (hexec : Executing k.sched)
      (halloc : slotAlloc k.sched = some slot)
      (hview : k'.sched.view = k.sched.view.set slot .ready)
      (has : ∀ i, (k'.sched.tasks i).as = if i = slot then 0 else (k.sched.tasks i).as)
      (hprocs : k'.procs = k.procs) (hmm : k'.mm = k.mm) : Move c k k' (.task slot)
  | process {k' : Kernel} (slot pcb as chunk : Nat) (hexec : Executing k.sched)
      (halloc : slotAlloc k.sched = some slot) (hfree : freeProc k = some pcb)
      (hbuild : buildSpace c.toKernelTables k.mm = (some (as, chunk), k'.mm))
      (hview : k'.sched.view = k.sched.view.set slot .ready)
      (has : ∀ i, (k'.sched.tasks i).as = if i = slot then as else (k.sched.tasks i).as)
      (hpcb : (k'.procs pcb).state = .alive ∧ (k'.procs pcb).pid = k.nextPid ∧
        (k'.procs pcb).taskIdx = some slot ∧ (k'.procs pcb).as = as)
      (hprocs : ∀ i, i ≠ pcb → k'.procs i = k.procs i) :
      Move c k k' (.process slot pcb k.nextPid)
  | failed {k' : Kernel} (hsched : k'.sched = k.sched) (hprocs : k'.procs = k.procs)
      (hmm : buildSpace c.toKernelTables k.mm = (none, k'.mm) ∨
        ∃ as chunk mm, buildSpace c.toKernelTables k.mm = (some (as, chunk), mm) ∧
          k'.mm = releaseSpace mm as chunk) : Move c k k' .quiet
  | switched {k' : Kernel} (cur next : Nat) (hcur : k.sched.current = some cur)
      (hrun : k.sched.view.st cur = .running)
      (hnext : k.sched.view.next cur = some next)
      (hview : k'.sched.view = (k.sched.view.set cur .ready).handTo next)
      (has : SameAs k.sched k'.sched) (hprocs : k'.procs = k.procs)
      (hmm : k'.mm = switchedMm k cur next) : Move c k k' .quiet
  | retired {k' : Kernel} (cur next : Nat) (hcur : k.sched.current = some cur)
      (hrun : k.sched.view.st cur = .running)
      (hnext : (k.sched.view.set cur .finished).next cur = some next)
      (hview : k'.sched.view = (k.sched.view.set cur .finished).handTo next)
      (has : SameAs k.sched k'.sched)
      (hprocs : Ended k k') (hmm : k'.mm = switchedMm k cur next) : Move c k k' .quiet
  | parked {k' : Kernel} (cur : Nat) (hcur : k.sched.current = some cur)
      (hrun : k.sched.view.st cur = .running)
      (hnone : (k.sched.view.set cur .finished).next cur = none)
      (hview : k'.sched.view = k.sched.view.set cur .finished)
      (has : SameAs k.sched k'.sched)
      (hprocs : Ended k k') (hmm : k'.mm = k.mm) : Move c k k' .quiet
  | reaped {k' : Kernel} (pid : Int) (i : Nat) (hexec : Executing k.sched)
      (hfound : findPid k pid = some i)
      (hzombie : (k.procs i).state = .zombie) (hview : k'.sched.view = k.sched.view)
      (has : SameAs k.sched k'.sched) (hprocs : ∀ j, j ≠ i → k'.procs j = k.procs j)
      (hpcb : (k'.procs i).state = .none) (hmm : k'.mm = asDestroy k.mm (k.procs i).as) :
      Move c k k' (.reaped pid)

lemma findByTask_some {task : Option Nat} (hfound : findByTask k task = some i) :
  i < maxProcs ∧ (k.procs i).state ≠ .none ∧ (k.procs i).taskIdx = task := by
  have hmem := List.mem_range.mp (List.mem_of_find?_eq_some hfound)
  have hprop : (k.procs i).state ≠ .none ∧ (k.procs i).taskIdx = task := by
    simpa using List.find?_some hfound
  exact ⟨hmem, hprop⟩

lemma freeProc_some (hfound : freeProc k = some i) : i < maxProcs ∧ (k.procs i).state = .none := by
  have hmem := List.mem_range.mp (List.mem_of_find?_eq_some hfound)
  exact ⟨hmem, by simpa using List.find?_some hfound⟩

lemma schedOnTick_as (s : Sched.State) : SameAs s (schedOnTick s) := by
  refine schedOnTick_field Task.as (fun limit slot t => ?_) s
  simp only [tickTask]
  split_ifs <;> rfl

lemma onTicks_as (n : Nat) (s : Sched.State) : SameAs s (onTicks n s) := by
  induction n generalizing s with
  | zero => exact fun _ => rfl
  | succ n ih => exact fun i => (ih _ i).trans (schedOnTick_as s i)

lemma setTask_as (s : Sched.State) (slot : Nat) (f : Task → Task)
  (hf : ∀ t, (f t).as = t.as) : SameAs s (s.setTask slot f) :=
  State.setTask_field Task.as s slot f (hf _)

lemma switchIn_as (s : Sched.State) (ticks next : Nat) : SameAs s (switchIn s ticks next) :=
  setTask_as s next (fun t => { t with state := .running }) fun _ => rfl

lemma SameAs.trans {s t r : Sched.State} (h : SameAs s t) (h' : SameAs t r) : SameAs s r :=
  fun i => (h' i).trans (h i)

lemma schedExit_as (s : Sched.State) (ticks : Nat) : SameAs s (schedExit s ticks).1 := by
  unfold schedExit
  cases s.current with
  | none => exact fun _ => rfl
  | some c =>
    have hfinish := setTask_as s c (fun t => { t with state := .finished }) fun _ => rfl
    dsimp only
    cases nextReady (s.setTask c fun t => { t with state := .finished }) c with
    | none => exact hfinish
    | some n => exact hfinish.trans (switchIn_as _ _ _)

lemma schedYield_as (s : Sched.State) (ticks : YieldTicks) : SameAs s (schedYield s ticks).1 := by
  cases hcur : s.current with
  | none =>
    simp only [schedYield, hcur]
    exact fun _ => rfl
  | some c =>
    by_cases hkill : (s.tasks c).killPending = true
    · rw [schedYield_of_killPending ticks hcur hkill]
      exact schedExit_as s _
    have hticks : SameAs s (onTicks ticks.scan ((onTicks ticks.verdict s).setTask c
        fun t => { t with starvedTicks := 0 })) :=
      ((onTicks_as _ s).trans
        (setTask_as _ _ (fun t => { t with starvedTicks := 0 }) fun _ => rfl)).trans
        (onTicks_as _ _)
    simp only [schedYield, hcur, hkill, Bool.false_eq_true, if_false]
    split
    · exact hticks
    refine (hticks.trans ?_).trans (switchIn_as _ _ _)
    exact setTask_as _ _ (fun t => { t with state := .ready, yields := t.yields + 1 })
      fun _ => rfl

/-! ## Every event is a move -/

section
variable {c : Statics} {k : Kernel}

lemma dispatch_mm (k : Kernel) {result : Sched.State × Option Dispatch} {prev next : Nat}
  (has : SameAs k.sched result.1) (hdispatch : result.2 = some ⟨prev, next⟩) :
  (k.dispatch result).mm = switchedMm k prev next := by
  simp only [Kernel.dispatch, hdispatch, switchAddressSpace, switchedMm, has prev, has next]

section
variable (hexec : Executing k.sched)
include hexec

lemma move_yield (ticks : YieldTicks) :
  Move c k (k.dispatch (schedYield k.sched ticks)) .quiet := by
  have has := schedYield_as k.sched ticks
  have hrun : ∀ cur, k.sched.current = some cur → k.sched.view.st cur = .running := by
    obtain ⟨cur, hcur, hrun⟩ := hexec
    intro cur' hcur'
    rwa [Option.some.inj (hcur'.symm.trans hcur)]
  have heffect := react_effect k.sched (.yield ticks) hexec
  change Effect k.sched (.yield ticks) (schedYield k.sched ticks).1.view
    (schedYield k.sched ticks).2 at heffect
  generalize hview : (schedYield k.sched ticks).1.view = v at heffect
  generalize hdispatch : (schedYield k.sched ticks).2 = d at heffect
  cases heffect with
  | quiet =>
    refine .quiet hview has (fun i => SamePcb.refl _) ?_
    simp only [Kernel.dispatch, hdispatch]
  | spawned slot hinto => exact hinto.elim
  | handed cur next hcur hnext =>
    exact .switched cur next hcur (hrun cur hcur) hnext hview has rfl (dispatch_mm k has hdispatch)
  | retired cur next _ hcur hnext =>
    exact .retired cur next hcur (hrun cur hcur) hnext hview has (.inl rfl)
      (dispatch_mm k has hdispatch)
  | parked cur _ hcur hnone =>
    refine .parked cur hcur (hrun cur hcur) hnone hview has (.inl rfl) ?_
    simp only [Kernel.dispatch, hdispatch]

lemma move_exit {k₁ : Kernel} (hended : Ended k k₁) (hsched : k₁.sched = k.sched)
    (hmm : k₁.mm = k.mm) (ticks : Nat) :
  Move c k (k₁.dispatch (schedExit k.sched ticks)) .quiet := by
  obtain ⟨cur, hcur, hrun⟩ := hexec
  have has := schedExit_as k.sched ticks
  have has₁ : SameAs k₁.sched (schedExit k.sched ticks).1 := by rwa [hsched]
  have hswitch : ∀ prev next, switchedMm k₁ prev next = switchedMm k prev next := by
    intro prev next
    simp only [switchedMm, hsched, hmm]
  rcases schedExit_cases ticks hcur with ⟨next, hnext, hview, hdispatch⟩ | ⟨hnone, hview, hdispatch⟩
  · exact .retired cur next hcur hrun hnext hview has hended
      ((dispatch_mm k₁ has₁ hdispatch).trans (hswitch _ _))
  refine .parked cur hcur hrun hnone hview has hended ?_
  simp only [Kernel.dispatch, hdispatch, hmm]

lemma move_spawnSlot {k' : Kernel} {valid : Bool} {fill : Task → Task}
    (hfill : ∀ t, (fill t).state = .ready ∧ (fill t).as = 0)
    (hsched : k'.sched = (spawnSlot k.sched valid fill).2) (hprocs : k'.procs = k.procs)
    (hmm : k'.mm = k.mm) : Move c k k' (taskOutcome (spawnSlot k.sched valid fill).1) := by
  rcases spawnSlot_cases k.sched valid fill with heq | ⟨slot, halloc, heq⟩
  · rw [heq] at hsched ⊢
    exact .quiet (by rw [hsched]) (by rw [hsched]; exact fun _ => rfl)
      (fun i => by rw [hprocs]; exact SamePcb.refl _) hmm
  rw [heq] at hsched ⊢
  refine .task slot hexec halloc ?_ (fun i => ?_) hprocs hmm
  · rw [hsched, view_setTask, (hfill _).1]
  rw [hsched]
  split_ifs with hi
  · rw [hi, State.setTask_tasks_same, (hfill _).2]
  · rw [State.setTask_tasks_of_ne _ _ hi]

lemma move_spawnImage (hpid : k.nextPid ≠ -1) (name : Option (List UInt8))
    (image size entryOff : Nat) : Move c k (procSpawnImage c k name image size entryOff).2
    (imageOutcome k (procSpawnImage c k name image size entryOff).1) := by
  have hcases := procSpawnImage_cases c k name image size entryOff
  generalize procSpawnImage c k name image size entryOff = r at hcases ⊢
  cases hcases with
  | refused =>
    rw [imageOutcome_failed]
    exact .quiet rfl (fun _ => rfl) (fun i => SamePcb.refl _) rfl
  | noMemory mm hbuild =>
    rw [imageOutcome_failed]
    exact .failed rfl rfl (.inl hbuild)
  | noTask as chunk mm hbuild =>
    rw [imageOutcome_failed]
    exact .failed rfl rfl (.inr ⟨as, chunk, mm, hbuild, rfl⟩)
  | created name pcb slot as chunk mm hfree hbuild halloc =>
    simp only [imageOutcome, halloc, hfree, hpid, if_false]
    refine .process slot pcb as chunk hexec halloc hfree hbuild ?_ (fun i => ?_) ?_ ?_
    · dsimp only [Kernel.withProcess]
      rw [view_setTask]
      rfl
    · dsimp only [Kernel.withProcess]
      split_ifs with hi
      · rw [hi, State.setTask_tasks_same]
      · rw [State.setTask_tasks_of_ne _ _ hi]
    · simp [Kernel.withProcess]
    intro i hi
    simp [Kernel.withProcess, hi]

end

lemma setCurrentFds_same (k : Kernel) (fds : Nat → Nat) (i : Nat) :
  SamePcb (k.procs i) ((setCurrentFds k fds).procs i) := by
  unfold setCurrentFds
  cases findCurrentProc k with
  | none => exact SamePcb.refl _
  | some j =>
    by_cases hij : i = j
    · subst hij
      simp [Kernel.setProc, SamePcb]
    · simp [Kernel.setProc, hij, SamePcb]

lemma setCurrentFds_sched (k : Kernel) (fds : Nat → Nat) :
  (setCurrentFds k fds).sched = k.sched ∧ (setCurrentFds k fds).mm = k.mm := by
  unfold setCurrentFds
  cases findCurrentProc k <;> exact ⟨rfl, rfl⟩

lemma move_setCurrentFds (k : Kernel) (fds : Nat → Nat) :
  Move c k (setCurrentFds k fds) .quiet := by
  obtain ⟨hsched, hmm⟩ := setCurrentFds_sched k fds
  exact .quiet (by rw [hsched]) (by rw [hsched]; exact fun _ => rfl)
    (setCurrentFds_same k fds) hmm

lemma schedTaskSetPid_view (s : Sched.State) (idx : Nat) (pid : Int) :
  (schedTaskSetPid s idx pid).view = s.view ∧ SameAs s (schedTaskSetPid s idx pid) := by
  unfold schedTaskSetPid
  split_ifs
  · exact ⟨view_setTask_of_state _ _ _ rfl,
      setTask_as s idx (fun t => { t with pid := pid }) fun _ => rfl⟩
  · exact ⟨rfl, fun _ => rfl⟩

lemma move_wait (hexec : Executing k.sched) (pid : Int) (ticks : YieldTicks) :
  Move c k (procWait k pid ticks).2 (waitOutcome (procWait k pid ticks).1) := by
  unfold procWait
  cases hfound : findPid k pid with
  | none => exact .quiet rfl (fun _ => rfl) (fun i => SamePcb.refl _) rfl
  | some i =>
    dsimp only
    split_ifs with hzombie
    · have hsched : (reap k i).sched.view = k.sched.view ∧ SameAs k.sched (reap k i).sched := by
        simp only [reap]
        cases (k.procs i).taskIdx with
        | none => exact ⟨rfl, fun _ => rfl⟩
        | some task => exact schedTaskSetPid_view k.sched task (-1)
      refine .reaped pid i hexec hfound hzombie hsched.1 hsched.2 (fun j hj => ?_) ?_ rfl
      · simp [reap, Kernel.setProc, hj]
      · simp [reap, Kernel.setProc]
    · exact move_yield hexec ticks

lemma move_procExit (hexec : Executing k.sched) (code : Int) (ticks : Nat) :
  Move c k (procExit k code ticks) .quiet := by
  unfold procExit
  cases hfound : findByTask k (schedCurrentIndex k.sched) with
  | none => exact move_exit hexec (.inl rfl) rfl rfl ticks
  | some i =>
    have hended : Ended k (k.setProc i fun p => { p with exitCode := code, state := .zombie }) := by
      refine .inr ⟨i, hfound, fun j hj => ?_, ?_⟩
      · simp [Kernel.setProc, hj]
      · simp [Kernel.setProc, SamePcb]
    exact move_exit hexec hended rfl rfl ticks

lemma kernelReact_move (hpid : k.nextPid ≠ -1) (e : Event) (hadmits : kernelAdmits k e) :
  Move c k (kernelReact c k e).1 (kernelReact c k e).2 := by
  have hstay : Move c k k .quiet := .quiet rfl (fun _ => rfl) (fun i => SamePcb.refl _) rfl
  cases e with
  | spawn name entry stack stackLen =>
    exact move_spawnSlot hadmits (fun _ => ⟨rfl, rfl⟩) rfl rfl rfl
  | spawnUser name entry kstack kstackLen =>
    simp only [kernelReact, schedSpawnUser]
    split_ifs
    · exact hstay
    · exact move_spawnSlot hadmits (fun _ => ⟨rfl, rfl⟩) rfl rfl rfl
  | spawnImage name image size entryOff =>
    exact move_spawnImage hadmits hpid name image size entryOff
  | yield ticks => exact move_yield hadmits ticks
  | exit ticks => exact move_exit hadmits (.inl rfl) rfl rfl ticks
  | procExit code ticks => exact move_procExit hadmits code ticks
  | wait pid ticks => exact move_wait hadmits pid ticks
  | fdAlloc dev =>
    simp only [kernelReact, procFdAlloc]
    split
    · exact move_setCurrentFds k _
    · exact hstay
  | fdClose fd =>
    simp only [kernelReact, procFdClose]
    split_ifs
    · exact move_setCurrentFds k _
    · exact hstay
  | tick =>
    exact .quiet (view_schedOnTick _) (schedOnTick_as _) (fun i => SamePcb.refl _) rfl
  | watchdogSet limit => exact .quiet rfl (fun _ => rfl) (fun i => SamePcb.refl _) rfl

end

structure Owner where
  pcb : Nat
  pid : Int
  deriving DecidableEq

/-- The kernel and what an observer wrote down. -/
structure World where
  kernel : Kernel
  /-- For each slot, the process its last task was created for. -/
  owner : Nat → Option Owner
  /-- Pids that `proc_spawn_image` returned. -/
  spawned : List Int
  /-- Pids that `proc_wait` returned. -/
  reaped : List Int

def World.note (w : World) (result : Kernel × Outcome) : World :=
  match result.2 with
  | .quiet => { w with kernel := result.1 }
  | .task slot => { w with kernel := result.1, owner := Function.update w.owner slot none }
  | .process slot pcb pid =>
    { w with
      kernel := result.1
      owner := Function.update w.owner slot (some ⟨pcb, pid⟩)
      spawned := pid :: w.spawned }
  | .reaped pid => { w with kernel := result.1, reaped := pid :: w.reaped }

/-- The kernel after the boot sequence, with the heap and the page allocator in any sound state
that keeps the kernel's tables out of reach. -/
structure Boot (c : Statics) (k : Kernel) : Prop where
  sched : ∃ before mainName, k.sched = schedInit before mainName
  procs : ∀ i, (k.procs i).state = .none
  nextPid : k.nextPid = 1
  active : k.mm.asActive = 0
  heap_pos : 0 < k.mm.heap.ptr
  heap_end : k.mm.heap.ptr ≤ heapEnd
  tables : ∃ mem, k.mm.mem = vmmInit c.toKernelTables mem
  pages : k.mm.pmm.Wf
  kernelPages : ∀ a, PageSource.Available k.mm.pmm a → ¬ c.toKernelTables.Has a

/-- Every interleaving of calls and ticks after boot. -/
def machine (c : Statics) : Machine World Event where
  init w := Boot c w.kernel ∧ w.owner = (fun _ => none) ∧ w.spawned = [] ∧ w.reaped = []
  enabled w e := kernelAdmits w.kernel e
  step w e := w.note (kernelReact c w.kernel e)

instance (c : Statics) (w : World) (e : Event) : Decidable ((machine c).enabled w e) :=
  inferInstanceAs (Decidable (kernelAdmits w.kernel e))

@[simp]
lemma note_kernel (w : World) (result : Kernel × Outcome) : (w.note result).kernel = result.1 := by
  unfold World.note
  cases result.2 <;> rfl

lemma outcome_of_not_creates (c : Statics) (k : Kernel) {e : Event} (he : e.creates = false)
  (slot pcb : Nat) (pid : Int) : (kernelReact c k e).2 ≠ .process slot pcb pid := by
  have htask : ∀ r, taskOutcome r ≠ .process slot pcb pid := by
    rintro (_ | _) heq <;> cases heq
  have hwait : ∀ r, waitOutcome r ≠ .process slot pcb pid := by
    rintro (_ | _ | _) heq <;> cases heq
  cases e with
  | spawn | spawnUser => exact htask _
  | spawnImage => cases he
  | wait => exact hwait _
  | yield | exit | procExit | fdAlloc | fdClose | tick | watchdogSet => exact Outcome.noConfusion

lemma nextPid_of_not_creates (c : Statics) (k : Kernel) {e : Event} (he : e.creates = false) :
  (kernelReact c k e).1.nextPid = k.nextPid := by
  have hfds : ∀ fds, (setCurrentFds k fds).nextPid = k.nextPid := by
    intro fds
    unfold setCurrentFds
    cases findCurrentProc k <;> rfl
  cases e with
  | spawn | yield | exit | tick | watchdogSet => rfl
  | spawnUser name entry kstack kstackLen =>
    simp only [kernelReact, schedSpawnUser]
    split_ifs <;> rfl
  | spawnImage => cases he
  | procExit code ticks =>
    simp only [kernelReact, procExit]
    split <;> rfl
  | wait pid ticks =>
    simp only [kernelReact, procWait]
    split
    · rfl
    · split_ifs <;> rfl
  | fdAlloc dev =>
    simp only [kernelReact, procFdAlloc]
    split
    · exact hfds _
    · rfl
  | fdClose fd =>
    simp only [kernelReact, procFdClose]
    split_ifs
    · exact hfds _
    · rfl

lemma nextPid_le (c : Statics) (k : Kernel) (e : Event) :
  k.nextPid ≤ (kernelReact c k e).1.nextPid := by
  by_cases he : e.creates = false
  · rw [nextPid_of_not_creates c k he]
  cases e with
  | spawnImage name image size entryOff =>
    dsimp only [kernelReact]
    have hcases := procSpawnImage_cases c k name image size entryOff
    generalize procSpawnImage c k name image size entryOff = r at hcases ⊢
    cases hcases with
    | refused | noMemory | noTask => exact le_rfl
    | created => exact Int.le_add_one le_rfl
  | _ => exact absurd rfl he

lemma Move.oneRunner {c : Statics} {k' : Kernel} {o : Outcome} (hmove : Move c k k' o)
  (hinv : OneRunner k.sched.view) : OneRunner k'.sched.view := by
  cases hmove with
  | quiet hview => rwa [hview]
  | task slot hexec halloc hview =>
    obtain ⟨cur, hcur, hrun⟩ := hexec
    rw [hview]
    exact oneRunner_spawned hinv hcur hrun (slotAlloc_some halloc).2
  | process slot pcb as chunk hexec halloc hfree hbuild hview =>
    obtain ⟨cur, hcur, hrun⟩ := hexec
    rw [hview]
    exact oneRunner_spawned hinv hcur hrun (slotAlloc_some halloc).2
  | failed hsched => rwa [hsched]
  | switched cur next hcur _ hnext hview =>
    rw [hview]
    exact oneRunner_handed hinv hcur (by simp) (View.next_some (hinv.lt hcur) hnext).1
  | retired cur next hcur _ hnext hview =>
    rw [hview]
    exact oneRunner_handed hinv hcur (by simp) (View.next_some (hinv.lt hcur) hnext).1
  | parked cur hcur _ hnone hview =>
    rw [hview]
    exact oneRunner_parked hinv hcur hnone
  | reaped pid i hexec hfound hzombie hview => rwa [hview]

end Aeos.Proc
