/-
# The kernel mutex

`mutex_t` of `kernel/sync.c` on top of the scheduler.
-/

import Aeos.Proc.World

namespace Aeos.Sync

open Lib Proc Sched Option Function

structure Mutex where
  /-- Slot of the owner; `none` is `-1`. -/
  owner : Option Nat
  lockCount : UInt32
  deriving DecidableEq

def mutexInit : Mutex := ⟨none, 0⟩

/-- `mutex_trylock`, called from slot `me`. -/
def mutexTrylock (m : Mutex) (me : Option Nat) : Bool × Mutex :=
  if m.owner = none ∨ m.owner = me then (true, { m with owner := me })
  else (false, { m with lockCount := m.lockCount + 1 })

def mutexLock (m : Mutex) (s : Sched.State) (ticks : YieldTicks) : Bool × Mutex × Sched.State :=
  let tried := mutexTrylock m (schedCurrentIndex s)
  if tried.1 then (true, tried.2, s) else (false, tried.2, (schedYield s ticks).1)

def mutexUnlock (m : Mutex) (me : Option Nat) : Mutex :=
  if m.owner = me then { m with owner := none } else m

/-- The scheduler and one mutex, with what an observer knows of each slot's task. -/
structure State where
  sched : Sched.State
  mutex : Mutex
  /-- Locks that have returned and are not matched by an unlock. -/
  depth : Nat → Nat
  /-- The task is in the loop of `mutex_lock`. -/
  waiting : Nat → Bool

inductive Event
  /-- Anything else a task or the timer does. -/
  | sched (e : Sched.Event)
  /-- One iteration of the loop of `mutex_lock`. -/
  | lock (ticks : YieldTicks)
  | unlock

def born (s : Sched.State) : Sched.Event → Option Nat
  | .spawn name entry stack stackLen => (schedSpawn s name entry stack stackLen).1
  | .spawnUser name as uentry usp pid stack stackLen =>
    (schedSpawnUserTask s name as uentry usp pid stack stackLen).1
  | _ => none

def note {α : Type} (f : Nat → α) (slot : Option Nat) (a : α) : Nat → α :=
  match slot with
  | some i => update f i a
  | none => f

def react (s : State) : Event → State
  | .sched e =>
    { s with
      sched := (Sched.react s.sched e).1
      depth := note s.depth (born s.sched e) 0
      waiting := note s.waiting (born s.sched e) false }
  | .lock ticks =>
    let me := schedCurrentIndex s.sched
    let tried := mutexLock s.mutex s.sched ticks
    { sched := tried.2.2
      mutex := tried.2.1
      depth := if tried.1 then note s.depth me (me.elim 0 s.depth + 1) else s.depth
      waiting := note s.waiting me (!tried.1) }
  | .unlock =>
    let me := schedCurrentIndex s.sched
    { s with
      mutex := mutexUnlock s.mutex me
      depth := note s.depth me (me.elim 0 s.depth - 1) }

def admits (s : State) : Event → Prop
  | .sched .tick => True
  | .sched _ => ∃ c, s.sched.current = some c ∧ (s.sched.tasks c).state = .running ∧
      s.waiting c = false
  | .lock _ => Executing s.sched
  | .unlock => ∃ c, s.sched.current = some c ∧ (s.sched.tasks c).state = .running ∧
      s.waiting c = false ∧ 0 < s.depth c

/-- Every run after `sched_init` and `mutex_init`. -/
def machine : Machine State Event where
  init s := Sched.machine.init s.sched ∧ s.mutex = mutexInit ∧ (∀ i, s.depth i = 0) ∧
    ∀ i, s.waiting i = false
  enabled := admits
  step := react

/-- The condition on a step: a task that yields inside a section owns the mutex. -/
def nestGuard (s : State) : Event → Prop
  | .sched (.yield _) => ∀ c, s.sched.current = some c → 0 < s.depth c → s.mutex.owner = some c
  | _ => True

structure Held (v : View) (owner : Option Nat) (depth : Nat → Nat) : Prop where
  runner : OneRunner v
  others : ∀ i, v.cur ≠ some i → Live v i → 0 < depth i → owner = some i
  current : ∀ c, v.cur = some c → Live v c → 0 < depth c → owner = none ∨ owner = some c

namespace Held

variable {v v' : View} {owner : Option Nat} {depth : Nat → Nat} {c : Nat}
variable {n : Nat} {s : Sched.State}

section
variable (h : Held v owner depth)
include h

section
variable (hcur : v.cur = some c)
include hcur

lemma switched (hnext : v'.cur = some n) (hne : n ≠ c) (hn : Live v n) (hrunner : OneRunner v')
    (hlive : ∀ i, Live v' i → Live v i) (hleft : Live v' c → 0 < depth c → owner = some c) :
    Held v' owner depth := by
  have hother : ∀ i, i ≠ c → Live v i → 0 < depth i → owner = some i := by
    intro i hi
    exact h.others i fun heq => hi (some.inj (heq.symm.trans hcur))
  refine ⟨hrunner, fun i _ hli hdepth => ?_, fun i hi _ hdepth => ?_⟩
  · by_cases hic : i = c
    · subst hic
      exact hleft hli hdepth
    · exact hother i hic (hlive i hli) hdepth
  obtain rfl : n = i := some.inj (hnext.symm.trans hi)
  exact .inr (hother n hne hn hdepth)

lemma yielded (hrun : v.st c = .running) (hnext : v.next c = some n)
    (hstay : 0 < depth c → owner = some c) : Held ((v.set c .ready).handTo n) owner depth := by
  have hlt := h.runner.lt hcur
  obtain ⟨hn, hready⟩ := View.next_some hlt hnext
  have hne : n ≠ c := by
    rintro rfl
    rw [hready] at hrun
    cases hrun
  exact h.switched hcur rfl hne (.inl hready)
    (oneRunner_handed h.runner hcur (by simp) hn)
    (fun i hi => live_of_handed hlt hrun hnext hi) fun _ => hstay

lemma retired (hnext : (v.set c .finished).next c = some n) :
  Held ((v.set c .finished).handTo n) owner depth := by
  obtain ⟨hn, hready⟩ := View.next_some (h.runner.lt hcur) hnext
  have hback : ∀ i, Live ((v.set c .finished).handTo n) i → i ≠ c ∧ Live v i := by
    intro i hi
    exact live_set_finished.mp ((live_handTo hready).mp hi)
  obtain ⟨hne, hlive⟩ := live_set_finished.mp (.inl hready)
  exact h.switched hcur rfl hne hlive (oneRunner_handed h.runner hcur (by simp) hn)
    (fun i hi => (hback i hi).2) fun hdead => absurd rfl (hback c hdead).1

lemma parked (hnone : (v.set c .finished).next c = none) :
  Held (v.set c .finished) owner depth := by
  refine ⟨oneRunner_parked h.runner hcur hnone, fun i hi hli hdepth => ?_, fun i hi hli _ => ?_⟩
  · exact h.others i hi (live_set_finished.mp hli).2 hdepth
  obtain rfl : c = i := some.inj (hcur.symm.trans hi)
  exact absurd rfl (live_set_finished.mp hli).1

end

lemma spawned {slot : Nat} (hrunner : OneRunner (v.set slot .ready)) :
  Held (v.set slot .ready) owner (update depth slot 0) := by
  have hold : ∀ i, Live (v.set slot .ready) i → 0 < update depth slot 0 i →
      Live v i ∧ 0 < depth i := by
    intro i hli hdepth
    by_cases hi : i = slot
    · rw [hi, Function.update_self] at hdepth
      exact absurd hdepth (Nat.lt_irrefl 0)
    rw [update_of_ne hi] at hdepth
    exact ⟨(live_set_ready.mp hli).resolve_left hi, hdepth⟩
  refine ⟨hrunner, fun i hi hli hdepth => ?_, fun i hi hli hdepth => ?_⟩
  · exact h.others i hi (hold i hli hdepth).1 (hold i hli hdepth).2
  · exact h.current i hi (hold i hli hdepth).1 (hold i hli hdepth).2

end

section
variable (h : Held s.view owner depth)
include h

lemma yield (hcur : s.current = some c) (hrun : (s.tasks c).state = .running)
    (hstay : 0 < depth c → owner = some c) (ticks : YieldTicks) :
    Held (schedYield s ticks).1.view owner depth := by
  have heffect := schedYield_effect ticks hcur
  generalize (schedYield s ticks).1.view = v at heffect
  generalize (schedYield s ticks).2 = d at heffect
  cases heffect with
  | quiet => exact h
  | spawned slot hinto => exact hinto.elim
  | handed c' n hcur' hnext =>
    obtain rfl : c = c' := some.inj (hcur.symm.trans hcur')
    exact h.yielded hcur hrun hnext hstay
  | retired c' n _ hcur' hnext => exact h.retired hcur' hnext
  | parked c' _ hcur' hnone => exact h.parked hcur' hnone

lemma spawn (hcur : s.current = some c) (hrun : (s.tasks c).state = .running) (valid : Bool)
    {fill : Task → Task} (hfill : ∀ t, (fill t).state = .ready) :
  Held (spawnSlot s valid fill).2.view owner (note depth (spawnSlot s valid fill).1 0) := by
  rcases spawnSlot_cases s valid fill with heq | ⟨slot, halloc, heq⟩
  · rw [heq]
    exact h
  rw [heq]
  simp only [view_setTask, hfill]
  exact h.spawned (oneRunner_spawned h.runner hcur hrun (slotAlloc_some halloc).2)

lemma sched {e : Sched.Event} (hadmits : Sched.admits s e)
    (hstay : ∀ ticks, e = .yield ticks → ∀ c, s.current = some c → 0 < depth c → owner = some c) :
  Held (Sched.react s e).1.view owner (note depth (born s e) 0) := by
  cases e with
  | spawn name entry stack stackLen =>
    obtain ⟨c, hcur, hrun⟩ := hadmits
    exact h.spawn hcur hrun _ fun _ => rfl
  | spawnUser name as uentry usp pid stack stackLen =>
    obtain ⟨c, hcur, hrun⟩ := hadmits
    exact h.spawn hcur hrun _ fun _ => rfl
  | yield ticks =>
    obtain ⟨c, hcur, hrun⟩ := hadmits
    exact h.yield hcur hrun (hstay ticks rfl c hcur) ticks
  | exit ticks =>
    obtain ⟨c, hcur, _⟩ := hadmits
    show Held (schedExit s ticks).1.view owner depth
    rcases schedExit_cases ticks hcur with ⟨n, hnext, hview, _⟩ | ⟨hnone, hview, _⟩
    · rw [hview]
      exact h.retired hcur hnext
    rw [hview]
    exact h.parked hcur hnone
  | tick =>
    show Held (schedOnTick s).view owner depth
    rw [view_schedOnTick]
    exact h
  | watchdogSet limit => exact h

end

lemma locked (h : Held v owner depth) (hcur : v.cur = some c)
  (hfree : owner = none ∨ owner = some c) : Held v (some c) (update depth c (depth c + 1)) := by
  refine ⟨h.runner, fun i hi hli hdepth => ?_, fun i hi _ _ => .inr (hcur.symm.trans hi)⟩
  have hne : i ≠ c := by
    rintro rfl
    exact hi hcur
  rw [update_of_ne hne] at hdepth
  have howner := h.others i hi hli hdepth
  rcases hfree with hfree | hfree
  · rw [hfree] at howner
    cases howner
  · exact absurd (some.inj (howner.symm.trans hfree)) hne

lemma unlocked (h : Held v owner depth) (hcur : v.cur = some c) (hlive : Live v c)
  (hinside : 0 < depth c) :
  Held v (if owner = some c then none else owner) (update depth c (depth c - 1)) := by
  refine ⟨h.runner, fun i hi hli hdepth => ?_, fun i hi _ _ => .inl ?_⟩
  · have hne : i ≠ c := by
      rintro rfl
      exact hi hcur
    rw [update_of_ne hne] at hdepth
    have howner := h.others i hi hli hdepth
    rw [if_neg fun heq => hne (some.inj (howner.symm.trans heq)), howner]
  rcases h.current c hcur hlive hinside with hnone | hsome
  · rw [hnone, if_neg (by simp)]
  · rw [if_pos hsome]

lemma step {s : State} (h : Held s.sched.view s.mutex.owner s.depth) {e : Event}
  (hadmits : admits s e) (hguard : nestGuard s e) :
  Held (react s e).sched.view (react s e).mutex.owner (react s e).depth := by
  cases e with
  | sched e =>
    refine h.sched ?_ fun ticks heq => ?_
    · cases e with
      | tick => trivial
      | spawn | spawnUser | yield | exit | watchdogSet =>
        obtain ⟨c, hcur, hrun, _⟩ := hadmits
        exact ⟨c, hcur, hrun⟩
    subst heq
    exact hguard
  | lock ticks =>
    obtain ⟨c, hcur, hrun⟩ := hadmits
    have hme : schedCurrentIndex s.sched = some c := hcur
    by_cases hfree : s.mutex.owner = none ∨ s.mutex.owner = some c
    · simp only [react, mutexLock, mutexTrylock, hme, if_pos hfree, if_true]
      exact h.locked hcur hfree
    simp only [react, mutexLock, mutexTrylock, hme, if_neg hfree, Bool.false_eq_true, if_false]
    -- A task that has to wait is outside.
    exact h.yield hcur hrun
      (fun hinside => absurd (h.current c hcur (.inr hrun) hinside) hfree) ticks
  | unlock =>
    obtain ⟨c, hcur, hrun, _, hinside⟩ := hadmits
    have hme : schedCurrentIndex s.sched = some c := hcur
    have hunlock : (mutexUnlock s.mutex (some c)).owner =
        if s.mutex.owner = some c then none else s.mutex.owner := by
      unfold mutexUnlock
      split_ifs <;> rfl
    simp only [react, hme, hunlock]
    exact h.unlocked hcur (.inr hrun) hinside

lemma of_init {s : State} (hinit : machine.init s) : Held s.sched.view s.mutex.owner s.depth := by
  obtain ⟨⟨before, mainName, hsched⟩, _, hdepth, _⟩ := hinit
  have hout : ∀ i, ¬ 0 < s.depth i := fun i => by simp [hdepth i]
  refine ⟨?_, fun i _ _ hi => absurd hi (hout i), fun i _ _ hi => absurd hi (hout i)⟩
  rw [hsched]
  exact oneRunner_schedInit before mainName

end Held

/-- In every run in which no task yields inside a section whose mutex it has given up,
a lock returns only while no other live task is inside. -/
theorem mutex_excludes {s : State} {c : Nat} (hreach : (machine.restrict nestGuard).Reachable s)
  (hcur : s.sched.current = some c) (hlock : (mutexTrylock s.mutex (some c)).1 = true) :
  ∀ i, i ≠ c → Live s.sched.view i → s.depth i = 0 := by
  have hheld : Held s.sched.view s.mutex.owner s.depth := by
    refine hreach.invariant (fun s => Held s.sched.view s.mutex.owner s.depth) ?_ ?_
    · intro s hinit
      exact Held.of_init hinit
    intro s e h henabled
    exact h.step henabled.1 henabled.2
  have hfree : s.mutex.owner = none ∨ s.mutex.owner = some c := by
    by_contra hbusy
    rw [mutexTrylock, if_neg hbusy] at hlock
    cases hlock
  intro i hi hlive
  by_contra hinside
  have howner := hheld.others i (fun heq => hi (some.inj (heq.symm.trans hcur))) hlive
    (Nat.pos_of_ne_zero hinside)
  rcases hfree with hfree | hfree
  · rw [hfree] at howner
    cases howner
  · exact hi (some.inj (howner.symm.trans hfree))

def bootLock : State := ⟨bootState, mutexInit, fun _ => 0, fun _ => false⟩

def spawnOne : Event := .sched (.spawn [] 1 1 256)

def plainSection : List Event :=
  [spawnOne, .lock ⟨0, 0, 0⟩, .unlock, .sched (.yield ⟨0, 0, 0⟩)]

def nestedSections : List Event :=
  [spawnOne, .lock ⟨0, 0, 0⟩, .lock ⟨0, 0, 0⟩, .unlock, .sched (.yield ⟨0, 0, 0⟩)]

lemma bootLock_init : machine.init bootLock :=
  ⟨⟨_, _, rfl⟩, rfl, fun _ => rfl, fun _ => rfl⟩

theorem mutex_excludes_plain : ∃ s : State, s.sched.current = some 1 ∧
  (mutexTrylock s.mutex (some 1)).1 = true ∧ Live s.sched.view 0 ∧ s.depth 0 = 0 := by
  have hrun : (machine.restrict nestGuard).Run bootLock plainSection
      (plainSection.foldl react bootLock) := by
    refine .cons ⟨⟨0, rfl, rfl, rfl⟩, trivial⟩ (.cons ⟨⟨0, rfl, ?_⟩, trivial⟩
      (.cons ⟨⟨0, rfl, ?_, rfl, ?_⟩, trivial⟩ (.cons ⟨⟨0, rfl, ?_, rfl⟩, ?_⟩ (.nil _))))
    · decide +kernel
    · decide +kernel
    · decide +kernel
    · decide +kernel
    intro c hc hinside
    cases hc
    exact absurd hinside (by decide +kernel)
  have hcur : (plainSection.foldl react bootLock).sched.current = some 1 := by decide +kernel
  have hlock : (mutexTrylock (plainSection.foldl react bootLock).mutex (some 1)).1 = true := by
    decide +kernel
  have hlive : Live (plainSection.foldl react bootLock).sched.view 0 := .inl (by decide +kernel)
  exact ⟨_, hcur, hlock, hlive,
    mutex_excludes ⟨_, _, bootLock_init, hrun⟩ hcur hlock 0 Nat.zero_ne_one hlive⟩

/-- The inner unlock of a nested section frees the mutex: another task locks it while the
first is still inside. -/
theorem nested_unlock_lets_in : ∃ s, machine.Reachable s ∧ s.sched.current = some 1 ∧
  (s.sched.tasks 1).state = .running ∧ (mutexTrylock s.mutex (some 1)).1 = true ∧
    Live s.sched.view 0 ∧ s.depth 0 = 1 := by
  have hrun : machine.Run bootLock nestedSections (nestedSections.foldl react bootLock) := by
    refine .cons ⟨0, rfl, rfl, rfl⟩ (.cons ⟨0, rfl, ?_⟩ (.cons ⟨0, rfl, ?_⟩
      (.cons ⟨0, rfl, ?_, rfl, ?_⟩ (.cons ⟨0, rfl, ?_, rfl⟩ (.nil _)))))
    all_goals decide +kernel
  exact ⟨_, ⟨_, _, bootLock_init, hrun⟩, by decide +kernel, by decide +kernel, by decide +kernel,
    .inl (by decide +kernel), by decide +kernel⟩

end Aeos.Sync
