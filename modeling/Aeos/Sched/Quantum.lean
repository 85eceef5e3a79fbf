/-
# The quantum and the watchdog's counter

`sched_should_preempt` measures the quantum with `starved_ticks`, a counter that belongs to the
watchdog: it only counts while a limit is set, never for slot 0, and is cleared where
`sched_yield` starts to look for another task.
-/

import Aeos.Sched.OneRunner

namespace Aeos.Sched

open Lib Function

def schedQuantum : UInt32 := 25

def schedShouldPreempt (s : State) : Bool :=
  match s.current with
  | none => false
  | some c =>
    if (s.tasks c).state ≠ .running then false
    else if (s.tasks c).starvedTicks < schedQuantum then false
    else (nextReady s c).isSome

/-! ## The observer -/

/-- The ticks since the task of a slot last yielded that found it RUNNING, and those that the
watchdog counted. -/
structure Gauge where
  ran : Nat
  counted : Nat

def Gauge.tick (limit : UInt32) (slot : Nat) (g : Gauge) : Gauge where
  ran := g.ran + 1
  counted := if limit ≠ 0 ∧ slot ≠ 0 then g.counted + 1 else g.counted

/-- The scheduler and what was observed of it. -/
structure Observed where
  sched : State
  /-- Ticks since the current task was switched in or last yielded. -/
  passed : Nat
  gauge : Nat → Gauge
  /-- Slot 0 still has the boot context. -/
  boot : Bool

def filled (s : State) : Event → Option Nat
  | .spawn name entry stack stackLen => (schedSpawn s name entry stack stackLen).1
  | .spawnUser name as uentry usp pid stack stackLen =>
    (schedSpawnUserTask s name as uentry usp pid stack stackLen).1
  | _ => none

def passedAfter (s : State) (passed : Nat) : Event → Nat
  | .tick => if Executing s then passed + 1 else passed
  | .yield ticks => if (schedYield s ticks).2 = none then ticks.scan else 0
  | .exit _ => 0
  | _ => passed

def refill (gauge : Nat → Gauge) : Option Nat → Nat → Gauge
  | none => gauge
  | some slot => update gauge slot ⟨0, 0⟩

def gaugeAfter (s : State) (gauge : Nat → Gauge) : Event → Nat → Gauge
  | .tick =>
    match s.current with
    | none => gauge
    | some c =>
      if (s.tasks c).state = .running then
        update gauge c ((gauge c).tick s.watchdogLimit c)
      else gauge
  | .yield ticks =>
    match s.current with
    | none => gauge
    | some c =>
      if (s.tasks c).killPending then gauge
      else update gauge c ((Gauge.tick s.watchdogLimit c)^[ticks.scan] ⟨0, 0⟩)
  | e => refill gauge (filled s e)

def observe (o : Observed) (e : Event) : Observed where
  sched := (react o.sched e).1
  passed := passedAfter o.sched o.passed e
  gauge := gaugeAfter o.sched o.gauge e
  boot := o.boot && filled o.sched e ≠ some 0

/-- Every run of the scheduler, observed. -/
def observer : Machine Observed Event where
  init o := ∃ before mainName, o = ⟨schedInit before mainName, 0, fun _ => ⟨0, 0⟩, true⟩
  enabled o := admits o.sched
  step := observe

/-! ## What an event does to the counters -/

structure SameCounters (s s' : State) : Prop where
  limit : s'.watchdogLimit = s.watchdogLimit
  starved : ∀ i, (s'.tasks i).starvedTicks = (s.tasks i).starvedTicks
  kill : ∀ i, (s'.tasks i).killPending = (s.tasks i).killPending

variable {s : State} {c : Nat}

lemma SameCounters.setTask (s : State) (slot : Nat) {f : Task → Task}
  (hstarved : ∀ t, (f t).starvedTicks = t.starvedTicks)
  (hkill : ∀ t, (f t).killPending = t.killPending) : SameCounters s (s.setTask slot f) :=
  ⟨rfl, State.setTask_field _ s slot f (hstarved _), State.setTask_field _ s slot f (hkill _)⟩

lemma SameCounters.trans {s₁ s₂ s₃ : State} (h : SameCounters s₁ s₂) (h' : SameCounters s₂ s₃) :
  SameCounters s₁ s₃ :=
  ⟨h'.limit.trans h.limit, fun i => (h'.starved i).trans (h.starved i),
    fun i => (h'.kill i).trans (h.kill i)⟩

lemma sameCounters_switchIn (s : State) (ticks n : Nat) : SameCounters s (switchIn s ticks n) := by
  have h := SameCounters.setTask s n (f := fun t => { t with state := .running }) (fun _ => rfl)
    fun _ => rfl
  exact ⟨rfl, h.starved, h.kill⟩

lemma sameCounters_schedExit (s : State) (ticks : Nat) : SameCounters s (schedExit s ticks).1 := by
  unfold schedExit
  cases s.current with
  | none => exact ⟨rfl, fun _ => rfl, fun _ => rfl⟩
  | some c =>
    have h := SameCounters.setTask s c (f := fun t => { t with state := .finished }) (fun _ => rfl)
      fun _ => rfl
    dsimp only
    split
    · exact h.trans (sameCounters_switchIn _ _ _)
    · exact h

lemma onTicks_limit (n : Nat) (s : State) : (onTicks n s).watchdogLimit = s.watchdogLimit := by
  induction n generalizing s with
  | zero => rfl
  | succ n ih =>
    rw [onTicks, ih, schedOnTick]
    cases s.current with
    | none => rfl
    | some c => dsimp only; split <;> rfl

lemma onTicks_tasks (n : Nat) : ∀ {s : State}, s.current = some c →
  (s.tasks c).state = .running → (onTicks n s).tasks =
    update s.tasks c ((tickTask s.watchdogLimit c)^[n] (s.tasks c)) := by
  induction n with
  | zero => exact fun _ _ => (Function.update_eq_self _ _).symm
  | succ n ih =>
    intro s hcur hrun
    have htick : schedOnTick s = ({ s with uptime := s.uptime + 1 } : State).setTask c
        (tickTask s.watchdogLimit c) := by
      simp only [schedOnTick, hcur, hrun, if_true]
    rw [onTicks, htick, ih (by exact hcur) (by simp [tickTask_state, hrun])]
    simp [State.setTask]

def yielded (limit : UInt32) (slot : Nat) (ticks : YieldTicks) (t : Task) : Task :=
  (tickTask limit slot)^[ticks.scan]
    { (tickTask limit slot)^[ticks.verdict] t with starvedTicks := 0 }

lemma schedYield_counters (ticks : YieldTicks) (hcur : s.current = some c)
  (hrun : (s.tasks c).state = .running) (hkill : (s.tasks c).killPending = false) :
  SameCounters (s.setTask c (yielded s.watchdogLimit c ticks)) (schedYield s ticks).1 := by
  have hverdict : ((onTicks ticks.verdict s).tasks c).state = .running :=
    (congrFun (congrArg View.st (view_onTicks ticks.verdict s)) c).trans hrun
  have hscan := onTicks_tasks ticks.scan (c := c)
    (s := (onTicks ticks.verdict s).setTask c fun t => { t with starvedTicks := 0 })
    (by exact (congrArg View.cur (view_onTicks _ s)).trans hcur) (by simpa using hverdict)
  have hlimit : (onTicks ticks.scan ((onTicks ticks.verdict s).setTask c
      fun t => { t with starvedTicks := 0 })).watchdogLimit = s.watchdogLimit := by
    rw [onTicks_limit]
    exact onTicks_limit _ s
  have htasks : (onTicks ticks.scan ((onTicks ticks.verdict s).setTask c
      fun t => { t with starvedTicks := 0 })).tasks =
        (s.setTask c (yielded s.watchdogLimit c ticks)).tasks := by
    rw [hscan]
    simp [State.setTask, onTicks_tasks ticks.verdict hcur hrun, onTicks_limit, yielded]
  have hsame : SameCounters (s.setTask c (yielded s.watchdogLimit c ticks)) (onTicks ticks.scan
      ((onTicks ticks.verdict s).setTask c fun t => { t with starvedTicks := 0 })) :=
    ⟨hlimit, fun i => by rw [htasks], fun i => by rw [htasks]⟩
  simp only [schedYield, hcur, hkill, Bool.false_eq_true, if_false]
  split
  · exact hsame
  refine (hsame.trans (.setTask _ c ?_ ?_)).trans (sameCounters_switchIn _ _ _)
  · exact fun _ => rfl
  · exact fun _ => rfl

/-! ## Invariants of a slot -/

structure Kept (P : UInt32 → Nat → Task → Gauge → Prop) : Prop where
  congr : ∀ {l i t t' g}, t'.starvedTicks = t.starvedTicks → t'.killPending = t.killPending →
    P l i t g → P l i t' g
  fresh : ∀ {l i t t' g}, t'.starvedTicks = 0 → t'.killPending = false →
    P l i t g → P l i t' ⟨0, 0⟩
  tick : ∀ {l i t g}, P l i t g → P l i (tickTask l i t) (g.tick l i)
  clear : ∀ {l i t g}, P l i t g → P l i { t with starvedTicks := 0 } ⟨0, 0⟩

namespace Kept

variable {P : UInt32 → Nat → Task → Gauge → Prop} {l : UInt32} {i : Nat} {t : Task} {g : Gauge}

lemma ticks (hP : Kept P) (n : Nat) (h : P l i t g) :
  P l i ((tickTask l i)^[n] t) ((Gauge.tick l i)^[n] g) := by
  induction n generalizing t g with
  | zero => exact h
  | succ n ih => exact ih (hP.tick h)

lemma yielded (hP : Kept P) (ticks : YieldTicks) (h : P l i t g) :
  P l i (yielded l i ticks t) ((Gauge.tick l i)^[ticks.scan] ⟨0, 0⟩) :=
  hP.ticks ticks.scan (hP.clear (hP.ticks ticks.verdict h))

end Kept

def AllSlots (P : UInt32 → Nat → Task → Gauge → Prop) (s : State) (gauge : Nat → Gauge) : Prop :=
  ∀ i < maxTasks, P s.watchdogLimit i (s.tasks i) (gauge i)

section
variable {P : UInt32 → Nat → Task → Gauge → Prop} {gauge : Nat → Gauge} {s' : State}

lemma AllSlots.same (hP : Kept P) (h : AllSlots P s gauge) (hsame : SameCounters s s') :
  AllSlots P s' gauge := by
  intro i hi
  rw [hsame.limit]
  exact hP.congr (hsame.starved i) (hsame.kill i) (h i hi)

lemma AllSlots.set (h : AllSlots P s gauge) (c : Nat) {f : Task → Task} {g : Gauge}
  (hc : c < maxTasks → P s.watchdogLimit c (f (s.tasks c)) g) :
  AllSlots P (s.setTask c f) (update gauge c g) := by
  intro i hi
  show P s.watchdogLimit i ((s.setTask c f).tasks i) _
  by_cases hic : i = c
  · subst hic
    simpa using hc hi
  · simpa [hic] using h i hi

lemma AllSlots.spawnSlot (hP : Kept P) (h : AllSlots P s gauge) (valid : Bool)
  {fill : Task → Task} (hstarved : ∀ t, (fill t).starvedTicks = 0)
  (hkill : ∀ t, (fill t).killPending = false) :
  AllSlots P (spawnSlot s valid fill).2 (refill gauge (spawnSlot s valid fill).1) := by
  rcases spawnSlot_cases s valid fill with heq | ⟨slot, _, heq⟩
  · rwa [heq]
  rw [heq]
  exact h.set slot fun hslot => hP.fresh (hstarved _) (hkill _) (h slot hslot)

/-- Step lemma. A new limit is dealt with by whoever allows it. -/
lemma AllSlots.react (hP : Kept P) (h : AllSlots P s gauge) {e : Event} (hadmits : admits s e)
  (hlimit : ∀ limit, e = .watchdogSet limit → AllSlots P (schedWatchdogSet s limit) gauge) :
  AllSlots P (react s e).1 (gaugeAfter s gauge e) := by
  cases e with
  | spawn name entry stack stackLen => exact h.spawnSlot hP _ (fun _ => rfl) fun _ => rfl
  | spawnUser name as uentry usp pid stack stackLen =>
    exact h.spawnSlot hP _ (fun _ => rfl) fun _ => rfl
  | yield ticks =>
    obtain ⟨c, hcur, hrun⟩ := hadmits
    simp only [Sched.react, gaugeAfter, hcur]
    split_ifs with hkill
    · rw [schedYield_of_killPending ticks hcur hkill]
      exact h.same hP (sameCounters_schedExit s _)
    refine AllSlots.same hP ?_ (schedYield_counters ticks hcur hrun (by simpa using hkill))
    exact h.set c fun hc => hP.yielded ticks (h c hc)
  | exit ticks => exact h.same hP (sameCounters_schedExit s ticks)
  | tick =>
    simp only [Sched.react, gaugeAfter, schedOnTick]
    cases s.current with
    | none => exact h
    | some c =>
      dsimp only
      split_ifs
      · exact AllSlots.set (s := { s with uptime := s.uptime + 1 }) h c fun hc => hP.tick (h c hc)
      · exact h
  | watchdogSet limit => exact hlimit limit rfl

lemma allSlots_schedInit {before : State} (hfresh : ∀ i t, t.starvedTicks = 0 →
  t.killPending = false → P before.watchdogLimit i t ⟨0, 0⟩) (mainName : List UInt8) :
  AllSlots P (schedInit before mainName) fun _ => ⟨0, 0⟩ := by
  intro i hi
  refine hfresh i _ ?_ ?_ <;> by_cases hzero : i = 0 <;> simp [schedInit, hzero, hi, idleTask]

end

/-! ## Preemption -/

def Counter (_limit : UInt32) (_slot : Nat) (t : Task) (g : Gauge) : Prop :=
  t.starvedTicks = UInt32.ofNat g.counted

lemma tickTask_starvedTicks (limit : UInt32) (slot : Nat) (t : Task) :
  (tickTask limit slot t).starvedTicks =
    if limit ≠ 0 ∧ slot ≠ 0 then t.starvedTicks + 1 else t.starvedTicks := by
  simp only [tickTask]
  split_ifs <;> rfl

lemma kept_counter : Kept Counter where
  congr hstarved _ h := hstarved.trans h
  fresh hstarved _ _ := hstarved
  tick {l i t g} h := by
    rw [Counter, tickTask_starvedTicks, Gauge.tick]
    split_ifs
    · rw [h, UInt32.ofNat_add]
      rfl
    · exact h
  clear _ := rfl

variable {o : Observed}

lemma counter_of_reachable (ho : observer.Reachable o) : AllSlots Counter o.sched o.gauge := by
  refine ho.invariant (fun o => AllSlots Counter o.sched o.gauge) ?_ fun o e h hadmits => ?_
  · rintro o ⟨before, mainName, rfl⟩
    exact allSlots_schedInit (fun _ _ hstarved _ => hstarved) mainName
  · exact h.react kept_counter hadmits fun limit _ i hi => h i hi

lemma reachable_sched (ho : observer.Reachable o) : machine.Reachable o.sched := by
  refine ho.invariant (fun o => machine.Reachable o.sched) ?_ fun o e h hadmits => h.step hadmits
  rintro o ⟨before, mainName, rfl⟩
  exact Machine.reachable_of_init ⟨before, mainName, rfl⟩

lemma schedShouldPreempt_iff (hcur : s.current = some c) (hc : c < maxTasks)
  (hrun : (s.tasks c).state = .running) : schedShouldPreempt s = true ↔
    schedQuantum ≤ (s.tasks c).starvedTicks ∧ ∃ i < maxTasks, (s.tasks i).state = .ready := by
  have hnext : (nextReady s c).isSome ↔ ∃ i < maxTasks, (s.tasks i).state = .ready := by
    rw [← Option.ne_none_iff_isSome, Ne, nextReady, cyclicFind_eq_none_iff hc]
    simp
  simp only [schedShouldPreempt, hcur, hrun, ne_eq, not_true, if_false]
  split_ifs with hearly
  · exact iff_of_false id fun h => absurd h.1 (UInt32.not_le.mpr hearly)
  · rw [hnext, and_iff_right (UInt32.not_lt.mp hearly)]

/-- A task that has used up its quantum is preempted if another one is READY, and no other
task is. -/
def Due (o : Observed) : Prop :=
  ∀ c, o.sched.current = some c → (o.sched.tasks c).state = .running →
    (schedQuantum.toNat ≤ o.passed → (∃ i < maxTasks, (o.sched.tasks i).state = .ready) →
      schedShouldPreempt o.sched = true) ∧
    (o.passed < schedQuantum.toNat → schedShouldPreempt o.sched = false)

/-- With any limits set on the way, preemption fires when it is due exactly if no other task is
READY, or the ticks that the watchdog has counted amount to a quantum exactly if those that have
passed do. -/
theorem preemption_due_iff {o : Observed} (ho : observer.Reachable o) :
  Due o ↔ ∀ c, o.sched.current = some c → (o.sched.tasks c).state = .running →
    (∃ i < maxTasks, (o.sched.tasks i).state = .ready) →
    (schedQuantum.toNat ≤ o.passed ↔ schedQuantum.toNat ≤ (o.gauge c).counted % 2 ^ 32) := by
  refine forall₃_congr fun c hcur hrun => ?_
  have hc := (oneRunner_of_reachable (reachable_sched ho)).lt hcur
  have hcounter : schedQuantum ≤ (o.sched.tasks c).starvedTicks ↔
      schedQuantum.toNat ≤ (o.gauge c).counted % 2 ^ 32 := by
    rw [counter_of_reachable ho c hc, UInt32.le_iff_toNat_le, UInt32.toNat_ofNat']
  have hpreempt := schedShouldPreempt_iff hcur hc hrun
  rw [hcounter] at hpreempt
  rw [← Bool.not_eq_true, hpreempt]
  constructor
  · intro ⟨hlate, hearly⟩ hready
    refine ⟨fun hpassed => (hlate hpassed hready).1, fun hcounted => ?_⟩
    exact not_lt.mp fun hpassed => hearly hpassed ⟨hcounted, hready⟩
  refine fun h => ⟨fun hpassed hready => ⟨(h hready).mp hpassed, hready⟩, ?_⟩
  exact fun hpassed ⟨hcounted, hready⟩ => absurd ((h hready).mpr hcounted) (not_le.mpr hpassed)

instance (s : State) (e : Event) : Decidable (admits s e) := by
  cases e <;> unfold admits <;> infer_instance

instance (o : Observed) (e : Event) : Decidable (observer.enabled o e) :=
  inferInstanceAs (Decidable (admits o.sched e))

def bootObserved : Observed := ⟨bootState, 0, fun _ => ⟨0, 0⟩, true⟩

lemma reachable_after (events : List Event) (hall : observer.admitsAll bootObserved events = true) :
  observer.Reachable (events.foldl observe bootObserved) :=
  ⟨bootObserved, events, ⟨_, _, rfl⟩, Machine.run_of_admitsAll bootObserved events hall⟩

def secondRan : Observed :=
  (.spawn [] 1 1 256 :: .yield ⟨0, 0, 0⟩ :: List.replicate 25 .tick).foldl observe bootObserved

theorem preemption_due_second : schedShouldPreempt secondRan.sched = true ∧ Due secondRan := by
  refine ⟨by decide +kernel, (preemption_due_iff (reachable_after _ (by decide +kernel))).mpr ?_⟩
  intro c hcur _ _
  obtain rfl : 1 = c := Option.some.inj hcur
  decide +kernel

def bootRan : Observed :=
  (.spawn [] 1 1 256 :: List.replicate 25 .tick).foldl observe bootObserved

/-- The boot task is not preempted, however long it runs. -/
theorem boot_task_not_preempted :
  observer.Reachable bootRan ∧ bootRan.passed = 25 ∧ (bootRan.sched.tasks 1).state = .ready ∧
    schedShouldPreempt bootRan.sched = false :=
  ⟨reachable_after _ (by decide +kernel), by decide +kernel, by decide +kernel, by decide +kernel⟩

end Aeos.Sched
