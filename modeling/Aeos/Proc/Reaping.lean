/-
# Every process is reaped once

Pids come from a counter and are never used again, and a table entry that was reaped is
empty before the next event.
-/

import Aeos.Proc.Spaces

namespace Aeos.Proc

open Lib Mem Sched List

/-! ## Calls of `as_destroy` -/

def buildDestroys (tables : KernelTables) (mm : Mm Pmm) : List Nat :=
  let created := asCreate tables mm
  if created.1 = 0 then []
  else
    match (fillSpace created.2 created.1).1 with
    | none => [created.1]
    | some _ => []

def spawnDestroys (c : Statics) (k : Kernel) (name : Option (List UInt8))
  (image size entryOff : Nat) : List Nat :=
  match name with
  | none => []
  | some name =>
    if !imageArgs image size entryOff then []
    else
      match freeProc k with
      | none => []
      | some slot =>
        match buildSpace c.toKernelTables k.mm with
        | (none, _) => buildDestroys c.toKernelTables k.mm
        | (some (as, _), _) =>
          match (schedSpawnUserTask k.sched name as (userVaBase + entryOff) userSp
              k.nextPid (c.kstacks + slot * procKstackSize) procKstackSize).1 with
          | none => [as]
          | some _ => []

def destroys (c : Statics) (k : Kernel) : Event → List Nat
  | .spawnImage name image size entryOff => spawnDestroys c k name image size entryOff
  | .wait pid _ =>
    match findPid k pid with
    | none => []
    | some i => if (k.procs i).state = .zombie then [(k.procs i).as] else []
  | _ => []

/-- The address spaces on which a run executes `as_destroy`, in order. -/
def destroyed (c : Statics) (w : World) : List Event → List Nat
  | [] => []
  | e :: es => destroys c w.kernel e ++ destroyed c ((machine c).step w e) es

def Pending (k : Kernel) (a : Nat) : Prop :=
  (∃ p, (k.procs p).state ≠ .none ∧ (k.procs p).as = a) ∨ k.mm.heap.ptr ≤ a

section
variable {c : Statics} {k k' : Kernel}

lemma pending_of_entries (hprocs : ∀ p, EntryKept (k.procs p) (k'.procs p))
  (hheap : k.mm.heap.ptr ≤ k'.mm.heap.ptr) {a : Nat} (h : Pending k' a) : Pending k a := by
  rcases h with ⟨p, hp, has⟩ | hle
  · exact .inl ⟨p, mt (hprocs p).1.mpr hp, (hprocs p).2.2.symm.trans has⟩
  · exact .inr (hheap.trans hle)

section
variable (h : SpaceInv k)
include h

lemma pending_of_move {o : Outcome} (hmove : Move c k k' o) {a : Nat} (hpending : Pending k' a) :
    Pending k a := by
  cases hmove.proc with
  | kept _ hprocs hmm => exact pending_of_entries hprocs (by rw [hmm.heap]) hpending
  | failed hprocs hmm =>
    apply pending_of_entries _ (h.constructs_of_failed hmm).heap_le hpending
    intro p
    exact .of_eq (congrFun hprocs p)
  | process slot pcb as chunk hbuild hpcb hprocs =>
    obtain ⟨hconstructs, hnew⟩ := buildSpace_constructs c.toKernelTables h.heap_pos h.heap_end
      h.loaded.ne hbuild
    obtain ⟨has, -, -⟩ := hnew as chunk rfl
    rcases hpending with ⟨p, hp, hpas⟩ | hle
    · by_cases hpp : p = pcb
      · subst hpp
        right
        rw [← hpas, hpcb.2, has]
      rw [hprocs p hpp] at hp hpas
      exact .inl ⟨p, hp, hpas⟩
    · exact .inr (hconstructs.heap_le.trans hle)
  | reaped pid i hexec _ hzombie hprocs hpcb hmm =>
    have hheap := (outside_asDestroy (h.active_ne_zombie hexec hzombie)).heap
    rw [← hmm] at hheap
    rcases hpending with ⟨p, hp, hpas⟩ | hle
    · obtain ⟨-, hp₀, heq⟩ := used_of_cleared hprocs hpcb hp
      rw [heq] at hpas
      exact .inl ⟨p, hp₀, hpas⟩
    rw [hheap] at hle
    exact .inr hle

lemma buildDestroys_spec (tables : KernelTables) :
  buildDestroys tables k.mm = [] ∨ buildDestroys tables k.mm = [k.mm.heap.ptr] ∧
    k.mm.heap.ptr < (buildSpace tables k.mm).2.heap.ptr := by
  unfold buildDestroys buildSpace
  rcases asCreate_cases tables h.heap_pos h.heap_end with
    ⟨-, heq⟩ | ⟨-, ⟨-, heq⟩ | ⟨a, -, -, heq⟩⟩
  · left
    rw [heq]
    rfl
  · left
    rw [heq]
    rfl
  rw [heq]
  rw [if_neg h.heap_pos.ne', if_neg h.heap_pos.ne']
  generalize hmade : ({ k.mm with
    heap := k.mm.heap.afterSpace
    pmm := (PageSource.allocPage k.mm.pmm).2
    mem := Function.update k.mm.mem a (Function.update k.mm.mem a (fun _ => 0) tables.pgd)
    spaces := Function.update k.mm.spaces k.mm.heap.ptr ⟨a, [a], 0, k.mm.heap.ptr⟩ } :
      Mm Pmm) = made
  have hactive : made.asActive ≠ k.mm.heap.ptr := by
    rw [← hmade]
    exact h.loaded.ne
  have hgrown : k.mm.heap.ptr < made.heap.ptr := by
    rw [← hmade]
    exact Nat.lt_add_of_pos_right (by decide)
  have hheap := (fillSpace_outside hactive).1.heap
  cases (fillSpace made k.mm.heap.ptr).1 with
  | none =>
    right
    exact ⟨rfl, by rwa [hheap]⟩
  | some chunk => exact .inl rfl

lemma spawnDestroys_spec (name : Option (List UInt8)) (image size entryOff : Nat) :
  spawnDestroys c k name image size entryOff = [] ∨
    spawnDestroys c k name image size entryOff = [k.mm.heap.ptr] ∧
      (procSpawnImage c k name image size entryOff).2.procs = k.procs ∧
      k.mm.heap.ptr < (procSpawnImage c k name image size entryOff).2.mm.heap.ptr := by
  unfold spawnDestroys procSpawnImage
  cases name with
  | none => exact .inl rfl
  | some name =>
    split_ifs with hargs
    · exact .inl rfl
    cases freeProc k with
    | none => exact .inl rfl
    | some slot =>
      have hdestroys := buildDestroys_spec h c.toKernelTables
      rcases hbuild : buildSpace c.toKernelTables k.mm with ⟨_ | ⟨as, chunk⟩, mm⟩
      · rw [hbuild] at hdestroys
        rcases hdestroys with hnil | ⟨hone, hgrown⟩
        · exact .inl hnil
        · exact .inr ⟨hone, rfl, hgrown⟩
      obtain ⟨hconstructs, hnew⟩ := buildSpace_constructs c.toKernelTables h.heap_pos
        h.heap_end h.loaded.ne hbuild
      obtain ⟨rfl, hgrown, -⟩ := hnew as chunk rfl
      dsimp only
      rcases schedSpawnUserTask k.sched name k.mm.heap.ptr (userVaBase + entryOff) userSp
        k.nextPid (c.kstacks + slot * procKstackSize) procKstackSize with ⟨_ | tidx, sched⟩
      · right
        refine ⟨rfl, rfl, ?_⟩
        have hactive : mm.asActive ≠ k.mm.heap.ptr := by
          rw [hconstructs.active]
          exact h.loaded.ne
        rwa [(outside_releaseSpace chunk hactive).heap]
      · exact .inl rfl

end

lemma findPid_some {pid : Int} {i : Nat} (hfound : findPid k pid = some i) :
  ((k.procs i).state = .alive ∨ (k.procs i).state = .zombie) ∧ (k.procs i).pid = pid := by
  simpa [findPid] using List.find?_some hfound

lemma destroys_spec (h : SpaceInv k) (e : Event) (hadmits : kernelAdmits k e) :
  destroys c k e = [] ∨ ∃ a, destroys c k e = [a] ∧ Pending k a ∧
    ¬ Pending (kernelReact c k e).1 a := by
  cases e with
  | spawn | spawnUser | yield | exit | procExit | fdAlloc | fdClose | tick | watchdogSet =>
    exact .inl rfl
  | spawnImage name image size entryOff =>
    rcases spawnDestroys_spec (c := c) h name image size entryOff with
      hnil | ⟨hone, hprocs, hgrown⟩
    · exact .inl hnil
    refine .inr ⟨_, hone, .inr le_rfl, ?_⟩
    rintro (⟨p, hp, has⟩ | hle)
    · simp only [kernelReact, hprocs] at hp has
      have := (h.made p hp).2.1
      omega
    simp only [kernelReact] at hle
    omega
  | wait pid ticks =>
    cases hfound : findPid k pid with
    | none =>
      left
      simp only [destroys, hfound]
    | some i =>
      by_cases hzombie : (k.procs i).state = .zombie
      · have hlive : (k.procs i).state ≠ .none := by
          rw [hzombie]
          simp
        right
        refine ⟨(k.procs i).as, by simp only [destroys, hfound, hzombie, if_true],
          .inl ⟨i, hlive, rfl⟩, ?_⟩
        have hreact : (kernelReact c k (.wait pid ticks)).1 = reap k i := by
          simp only [kernelReact, procWait, hfound, hzombie, if_true]
        rw [hreact]
        have hheap := (outside_asDestroy (h.active_ne_zombie hadmits hzombie)).heap
        rintro (⟨p, hp, has⟩ | hle)
        · by_cases hpi : p = i
          · subst hpi
            simp [reap, Kernel.setProc] at hp
          simp only [reap, Kernel.setProc, Function.update_of_ne hpi] at hp has
          exact hpi (h.distinct p i hp hlive has)
        have hmade := (h.made i hlive).2.1
        simp only [reap, hheap] at hle
        omega
      left
      simp only [destroys, hfound, hzombie, if_false]

end

variable {c : Statics} {es : List Event}

/-- Run lemma: everything a run destroys is pending at its start, and destroyed once. -/
lemma destroyed_nodup {w t : World} (hrun : (machine c).Run w es t) (h : SpacesKept w) :
  (destroyed c w es).Nodup ∧ ∀ a ∈ destroyed c w es, Pending w.kernel a := by
  induction hrun with
  | nil => exact ⟨nodup_nil, fun a ha => by cases ha⟩
  | @cons w t e es hadmits _ ih =>
    obtain ⟨hnodup, hrest⟩ := ih (h.step hadmits)
    have hkernel : ((machine c).step w e).kernel = (kernelReact c w.kernel e).1 :=
      note_kernel w _
    have hmove := kernelReact_move (c := c) (by have := h.pids; omega) e hadmits
    have hearlier : ∀ a ∈ destroyed c ((machine c).step w e) es, Pending w.kernel a := by
      intro a ha
      apply pending_of_move h.spaces hmove
      rw [← hkernel]
      exact hrest a ha
    rw [destroyed]
    rcases destroys_spec (c := c) h.spaces e hadmits with hnil | ⟨a, hone, hpending, hgone⟩
    · rw [hnil]
      exact ⟨hnodup, hearlier⟩
    rw [hone, singleton_append]
    refine ⟨nodup_cons.mpr ⟨fun hmem => hgone ?_, hnodup⟩, ?_⟩
    · rw [← hkernel]
      exact hrest a hmem
    intro b hb
    rcases mem_cons.mp hb with rfl | hb
    · exact hpending
    · exact hearlier b hb

/-! ## Pids -/

lemma nextPid_step {k : Kernel} (hpid : k.nextPid ≠ -1) (e : Event) :
  (kernelReact c k e).1.nextPid = k.nextPid + match (kernelReact c k e).2 with
    | .process _ _ _ => 1
    | _ => 0 := by
  by_cases he : e.creates = false
  · rw [nextPid_of_not_creates c k he]
    cases ho : (kernelReact c k e).2 with
    | process slot pcb pid => exact absurd ho (outcome_of_not_creates c k he slot pcb pid)
    | quiet | task | reaped => exact (Int.add_zero _).symm
  cases e with
  | spawnImage name image size entryOff =>
    dsimp only [kernelReact]
    have hcases := procSpawnImage_cases c k name image size entryOff
    generalize procSpawnImage c k name image size entryOff = r at hcases ⊢
    cases hcases with
    | refused | noMemory | noTask =>
      rw [imageOutcome_failed]
      exact (Int.add_zero _).symm
    | created name pcb slot as chunk mm hfree _ halloc =>
      simp only [imageOutcome, halloc, hfree, hpid, if_false, Kernel.withProcess]
  | _ => exact absurd rfl he

structure PidInv (w : World) : Prop where
  next : w.kernel.nextPid = w.spawned.length + 1
  live : ∀ p, (w.kernel.procs p).state ≠ .none →
    1 ≤ (w.kernel.procs p).pid ∧ (w.kernel.procs p).pid < w.kernel.nextPid ∧
      (w.kernel.procs p).pid ∉ w.reaped
  distinct : ∀ p q, (w.kernel.procs p).state ≠ .none → (w.kernel.procs q).state ≠ .none →
    (w.kernel.procs p).pid = (w.kernel.procs q).pid → p = q
  once : w.reaped.Nodup
  before : ∀ pid ∈ w.reaped, pid < w.kernel.nextPid

namespace PidInv

variable {c : Statics} {w : World} (h : PidInv w)
include h
variable {w' : World}

lemma of_kept (hprocs : ∀ p, EntryKept (w.kernel.procs p) (w'.kernel.procs p))
    (hnext : w'.kernel.nextPid = w.kernel.nextPid) (hspawned : w'.spawned = w.spawned)
    (hreaped : w'.reaped = w.reaped) : PidInv w' where
  next := by rw [hnext, hspawned, h.next]
  live p hp := by
    rw [(hprocs p).2.1, hnext, hreaped]
    exact h.live p (mt (hprocs p).1.mpr hp)
  distinct p q hp hq heq := by
    rw [(hprocs p).2.1, (hprocs q).2.1] at heq
    exact h.distinct p q (mt (hprocs p).1.mpr hp) (mt (hprocs q).1.mpr hq) heq
  once := by
    rw [hreaped]
    exact h.once
  before pid hpid := by
    rw [hreaped] at hpid
    rw [hnext]
    exact h.before pid hpid

lemma process {pcb : Nat} (hpcb : (w'.kernel.procs pcb).pid = w.kernel.nextPid)
    (hprocs : ∀ i, i ≠ pcb → w'.kernel.procs i = w.kernel.procs i)
    (hnext : w'.kernel.nextPid = w.kernel.nextPid + 1)
    (hspawned : w'.spawned = w.kernel.nextPid :: w.spawned) (hreaped : w'.reaped = w.reaped) :
  PidInv w' := by
  have hfresh : ∀ p, p ≠ pcb → (w'.kernel.procs p).state ≠ .none →
      (w'.kernel.procs p).pid ≠ w.kernel.nextPid := by
    intro p hpp hp
    rw [hprocs p hpp] at hp ⊢
    exact (h.live p hp).2.1.ne
  have hpos := h.next
  refine ⟨?_, fun p hp => ?_, fun p q hp hq heq => ?_, by rw [hreaped]; exact h.once,
    fun pid hpid => ?_⟩
  · rw [hnext, hspawned, length_cons, h.next]
    rfl
  · by_cases hpp : p = pcb
    · rw [hpp, hpcb, hnext, hreaped]
      refine ⟨by omega, by omega, fun hmem => ?_⟩
      have := h.before _ hmem
      omega
    rw [hprocs p hpp] at hp ⊢
    obtain ⟨hone, hlt, hnot⟩ := h.live p hp
    rw [hnext, hreaped]
    exact ⟨hone, by omega, hnot⟩
  · by_cases hpp : p = pcb
    · by_cases hqp : q = pcb
      · rw [hpp, hqp]
      rw [hpp, hpcb] at heq
      exact absurd heq.symm (hfresh q hqp hq)
    by_cases hqp : q = pcb
    · rw [hqp, hpcb] at heq
      exact absurd heq (hfresh p hpp hp)
    rw [hprocs p hpp] at hp heq
    rw [hprocs q hqp] at hq heq
    exact h.distinct p q hp hq heq
  rw [hreaped] at hpid
  have := h.before pid hpid
  omega

lemma reap {pid : Int} {i : Nat} (hfound : findPid w.kernel pid = some i)
    (hprocs : ∀ j, j ≠ i → w'.kernel.procs j = w.kernel.procs j)
    (hpcb : (w'.kernel.procs i).state = .none) (hnext : w'.kernel.nextPid = w.kernel.nextPid)
    (hspawned : w'.spawned = w.spawned) (hreaped : w'.reaped = pid :: w.reaped) : PidInv w' := by
  obtain ⟨hstate, hpid⟩ := findPid_some hfound
  have hi : (w.kernel.procs i).state ≠ .none := by
    rcases hstate with hstate | hstate <;> rw [hstate] <;> simp
  have hold := fun p (hp : (w'.kernel.procs p).state ≠ .none) => used_of_cleared hprocs hpcb hp
  obtain ⟨-, hlt, hnot⟩ := h.live i hi
  rw [hpid] at hlt hnot
  refine ⟨by rw [hnext, hspawned, h.next], fun p hp => ?_, fun p q hp hq heq => ?_, ?_, ?_⟩
  · obtain ⟨hpi, hp₀, heq⟩ := hold p hp
    obtain ⟨hone, hltp, hnotp⟩ := h.live p hp₀
    rw [heq, hnext, hreaped]
    refine ⟨hone, hltp, fun hmem => ?_⟩
    rcases mem_cons.mp hmem with hsame | hmem
    · exact hpi (h.distinct p i hp₀ hi (hsame.trans hpid.symm))
    · exact hnotp hmem
  · obtain ⟨-, hp₀, heqp⟩ := hold p hp
    obtain ⟨-, hq₀, heqq⟩ := hold q hq
    rw [heqp, heqq] at heq
    exact h.distinct p q hp₀ hq₀ heq
  · rw [hreaped]
    exact nodup_cons.mpr ⟨hnot, h.once⟩
  intro q hq
  rw [hreaped] at hq
  rw [hnext]
  rcases mem_cons.mp hq with rfl | hq
  · exact hlt
  · exact h.before q hq

lemma step {e : Event} (hadmits : kernelAdmits w.kernel e) :
  PidInv (w.note (kernelReact c w.kernel e)) := by
  have hpid : w.kernel.nextPid ≠ -1 := by
    rw [h.next]
    omega
  have hmove := kernelReact_move (c := c) hpid e hadmits
  have hnext := nextPid_step (c := c) hpid e
  rcases hreact : kernelReact c w.kernel e with ⟨k', o⟩
  rw [hreact] at hmove hnext
  cases hmove.proc with
  | kept ho hprocs =>
    rcases ho with rfl | ⟨slot, rfl⟩ <;>
      exact h.of_kept hprocs (hnext.trans (Int.add_zero _)) rfl rfl
  | failed hprocs =>
    refine h.of_kept (fun p => ?_) (hnext.trans (Int.add_zero _)) rfl rfl
    exact .of_eq (congrFun hprocs p)
  | process slot pcb as chunk _ hpcb hprocs => exact h.process hpcb.1 hprocs hnext rfl rfl
  | reaped pid i _ hfound _ hprocs hpcb =>
    exact h.reap hfound hprocs hpcb (hnext.trans (Int.add_zero _)) rfl rfl

end PidInv

lemma pidInv_of_run {w t : World} (hinit : (machine c).init w)
  (hrun : (machine c).Run w es t) : PidInv t := by
  apply hrun.invariant PidInv fun w e h hadmits => h.step hadmits
  obtain ⟨hboot, -, hspawned, hreaped⟩ := hinit
  refine ⟨?_, fun p hp => absurd (hboot.procs p) hp, fun p q hp => absurd (hboot.procs p) hp, ?_,
    ?_⟩
  · rw [hboot.nextPid, hspawned]
    rfl
  · rw [hreaped]
    exact nodup_nil
  rw [hreaped]
  intro pid hpid
  cases hpid

/-- Each pid was returned by one `proc_wait` at most, every further call on it returns `-1`, the
pids in the table are distinct, and no address space was destroyed twice. -/
structure ReapedOnce (t : World) (gone : List Nat) : Prop where
  once : t.reaped.Nodup
  after : ∀ pid ∈ t.reaped, ∀ ticks, procWait t.kernel pid ticks = (.missing, t.kernel)
  distinct : ∀ p q, (t.kernel.procs p).state ≠ .none → (t.kernel.procs q).state ≠ .none →
    (t.kernel.procs p).pid = (t.kernel.procs q).pid → p = q
  range : ∀ p, (t.kernel.procs p).state ≠ .none →
    1 ≤ (t.kernel.procs p).pid ∧ (t.kernel.procs p).pid ≤ t.spawned.length
  destroyed : gone.Nodup

lemma PidInv.findPid_reaped {t : World} (h : PidInv t) {pid : Int} (hpid : pid ∈ t.reaped) :
  findPid t.kernel pid = none := by
  cases hfound : findPid t.kernel pid with
  | none => rfl
  | some i =>
    obtain ⟨hstate, heq⟩ := findPid_some hfound
    have hi : (t.kernel.procs i).state ≠ .none := by
      rcases hstate with hstate | hstate <;> rw [hstate] <;> simp
    rw [← heq] at hpid
    exact absurd hpid (h.live i hi).2.2

/-- In every run after boot, whatever calls of `proc_wait`, creations and exits it
interleaves, every process is reaped at most once. -/
theorem reaped_at_most_once {c : Statics} {w t : World} {es : List Event}
  (hinit : (machine c).init w) (hrun : (machine c).Run w es t) :
  ReapedOnce t (destroyed c w es) := by
  have h := pidInv_of_run hinit hrun
  refine ⟨h.once, fun pid hpid ticks => ?_, h.distinct, fun p hp => ?_, ?_⟩
  · simp only [procWait, h.findPid_reaped hpid]
  · obtain ⟨hone, hlt, -⟩ := h.live p hp
    have := h.next
    exact ⟨hone, by omega⟩
  have hkept := spacesKept_of_reachable (Machine.reachable_of_init hinit)
  exact (destroyed_nodup hrun hkept).1

def waitedEvents : List Event := [.wait 1 ⟨0, 0, 0⟩, .procExit 7 0, .wait 1 ⟨0, 0, 0⟩]

theorem reaped_at_most_once_waited : ∃ t,
  (machine sampleStatics).Run sampleWorld (firstSpawn :: waitedEvents) t ∧ t.reaped = [1] ∧
    (procWait t.kernel 1 ⟨0, 0, 0⟩).1 = .missing := by
  have hrun := run_after_first waitedEvents (by decide +kernel)
  have hreaped : (waitedEvents.foldl (machine sampleStatics).step
      (firstWorld firstSpace.2)).reaped = [1] := by
    decide +kernel
  refine ⟨_, hrun, hreaped, ?_⟩
  rw [(reaped_at_most_once sampleWorld_init hrun).after 1 (by rw [hreaped]; simp)]

end Aeos.Proc
