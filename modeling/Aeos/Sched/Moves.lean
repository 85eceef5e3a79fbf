/-
# What a scheduler event can do

The task table matters to the scheduling arguments only through the slot states and the current
slot. `View` keeps just these, and `Effect` lists every way one event can change them; each
property of the scheduler is a case analysis over `Effect`.
-/

import Aeos.Sched.Model

namespace Aeos.Sched

open Lib

lemma schedOnTick_current (s : State) : (schedOnTick s).current = s.current := by
  unfold schedOnTick
  cases s.current with
  | none => rfl
  | some c => dsimp only; split <;> rfl

lemma schedOnTick_field {α : Type*} (field : Task → α)
  (hfield : ∀ limit slot t, field (tickTask limit slot t) = field t) (s : State) (i : Nat) :
  field ((schedOnTick s).tasks i) = field (s.tasks i) := by
  unfold schedOnTick
  cases s.current with
  | none => rfl
  | some c =>
    dsimp only
    split
    · exact State.setTask_field field _ _ _ (hfield _ _ _) i
    · rfl

lemma tickTask_state (limit : UInt32) (slot : Nat) (t : Task) :
  (tickTask limit slot t).state = t.state := by
  simp only [tickTask]
  split_ifs <;> rfl

/-! ## The scheduling view -/

structure View where
  st : Nat → TaskState
  cur : Option Nat

/-- Forget everything but the slot states and the current slot. -/
def State.view (s : State) : View where
  st i := (s.tasks i).state
  cur := s.current

namespace View

def next (v : View) (start : Nat) : Option Nat :=
  cyclicFind maxTasks (fun i => v.st i = .ready) start

def set (v : View) (slot : Nat) (state : TaskState) : View :=
  { v with st := Function.update v.st slot state }

def handTo (v : View) (slot : Nat) : View where
  st := Function.update v.st slot .running
  cur := some slot

@[simp]
lemma set_cur (v : View) (slot : Nat) (state : TaskState) : (v.set slot state).cur = v.cur :=
  rfl

@[simp]
lemma handTo_cur (v : View) (slot : Nat) : (v.handTo slot).cur = some slot := rfl

@[simp]
lemma set_st_same (v : View) (slot : Nat) (state : TaskState) :
  (v.set slot state).st slot = state := by
  simp [set]

lemma set_st_of_ne (v : View) {slot other : Nat} (state : TaskState) (hne : other ≠ slot) :
  (v.set slot state).st other = v.st other := by
  simp [set, hne]

variable {v : View}

lemma of_set_st {slot i : Nat} {state x : TaskState} (hx : state ≠ x)
  (h : (v.set slot state).st i = x) : i ≠ slot ∧ v.st i = x := by
  have hne : i ≠ slot := by
    rintro rfl
    exact hx ((set_st_same v i state).symm.trans h)
  rw [set_st_of_ne v state hne] at h
  exact ⟨hne, h⟩

@[simp]
lemma handTo_st_same (v : View) (slot : Nat) : (v.handTo slot).st slot = .running := by
  simp [handTo]

lemma handTo_st_of_ne (v : View) {slot other : Nat} (hne : other ≠ slot) :
  (v.handTo slot).st other = v.st other := by
  simp [handTo, hne]

lemma next_some {start n : Nat} (hstart : start < maxTasks)
  (hnext : v.next start = some n) : n < maxTasks ∧ v.st n = .ready := by
  obtain ⟨hlt, hready⟩ := cyclicFind_some hstart hnext
  exact ⟨hlt, by simpa using hready⟩

lemma next_none {start : Nat} (hstart : start < maxTasks)
  (hnext : v.next start = none) {i : Nat} (hi : i < maxTasks) : v.st i ≠ .ready := by
  have hfalse := (cyclicFind_eq_none_iff hstart).mp hnext i hi
  simpa using hfalse

end View

lemma view_setTask (s : State) (slot : Nat) (f : Task → Task) :
  (s.setTask slot f).view = s.view.set slot (f (s.tasks slot)).state := by
  simp only [State.view, View.set, State.setTask]
  congr 1
  funext i
  by_cases hi : i = slot
  · subst i
    simp
  · simp [hi]

lemma view_setTask_of_state (s : State) (slot : Nat) (f : Task → Task)
  (hf : (f (s.tasks slot)).state = (s.tasks slot).state) : (s.setTask slot f).view = s.view := by
  simp only [State.view, State.setTask_current]
  congr 1
  funext i
  exact State.setTask_field Task.state s slot f hf i

lemma view_schedOnTick (s : State) : (schedOnTick s).view = s.view := by
  simp only [State.view, schedOnTick_current]
  congr 1
  funext i
  exact schedOnTick_field Task.state tickTask_state s i

lemma view_onTicks (n : Nat) (s : State) : (onTicks n s).view = s.view := by
  induction n generalizing s with
  | zero => rfl
  | succ n ih => rw [onTicks, ih, view_schedOnTick]

lemma view_switchIn (s : State) (ticks next : Nat) :
  (switchIn s ticks next).view = s.view.handTo next := by
  have hset := view_setTask s next fun t => { t with state := .running }
  simp only [State.view, View.set, View.mk.injEq] at hset
  simp only [State.view, switchIn, View.handTo, hset.1]

lemma nextReady_eq (s : State) (start : Nat) : nextReady s start = s.view.next start := rfl

variable {s : State} {c : Nat}

lemma slotAlloc_some {slot : Nat} (halloc : slotAlloc s = some slot) : slot < maxTasks ∧
    ((s.tasks slot).state = .unused ∨ (s.tasks slot).state = .finished) := by
  have hmem := List.mem_of_find?_eq_some halloc
  exact ⟨List.mem_range.mp hmem, by simpa using List.find?_some halloc⟩

lemma spawnSlot_cases (s : State) (valid : Bool) (fill : Task → Task) :
  spawnSlot s valid fill = (none, s) ∨ ∃ slot, slotAlloc s = some slot ∧
      spawnSlot s valid fill = (some slot, s.setTask slot fill) := by
  unfold spawnSlot
  cases halloc : slotAlloc s with
  | none => exact .inl rfl
  | some slot =>
    dsimp only
    split
    · exact .inr ⟨slot, rfl, rfl⟩
    · exact .inl rfl

/-! ## Effects -/

/-- The event is a spawn whose result is `slot`. -/
def SpawnsInto (s : State) (e : Event) (slot : Nat) : Prop :=
  match e with
  | .spawn name entry stack stackLen =>
    (schedSpawn s name entry stack stackLen).1 = some slot
  | .spawnUser name as uentry usp pid stack stackLen =>
    (schedSpawnUserTask s name as uentry usp pid stack stackLen).1 = some slot
  | _ => False

def Retires (s : State) (e : Event) (c : Nat) : Prop :=
  (∃ ticks, e = .exit ticks) ∨ ((∃ ticks, e = .yield ticks) ∧ (s.tasks c).killPending = true)

inductive Effect (s : State) (e : Event) : View → Option Dispatch → Prop
  | quiet (hnone : ∀ slot, ¬ SpawnsInto s e slot) : Effect s e s.view none
  | spawned (slot : Nat) (hinto : SpawnsInto s e slot) (hlt : slot < maxTasks)
      (hfree : s.view.st slot = .unused ∨ s.view.st slot = .finished) :
      Effect s e (s.view.set slot .ready) none
  | handed (c n : Nat) (hcur : s.current = some c) (hnext : s.view.next c = some n) :
      Effect s e ((s.view.set c .ready).handTo n) (some ⟨c, n⟩)
  | retired (c n : Nat) (hwhy : Retires s e c) (hcur : s.current = some c)
      (hnext : (s.view.set c .finished).next c = some n) :
      Effect s e ((s.view.set c .finished).handTo n) (some ⟨c, n⟩)
  | parked (c : Nat) (hwhy : Retires s e c) (hcur : s.current = some c)
      (hnone : (s.view.set c .finished).next c = none) :
      Effect s e (s.view.set c .finished) none

lemma schedExit_cases (ticks : Nat) (hcur : s.current = some c) :
  (∃ n, (s.view.set c .finished).next c = some n ∧
      (schedExit s ticks).1.view = (s.view.set c .finished).handTo n ∧
      (schedExit s ticks).2 = some ⟨c, n⟩) ∨ ((s.view.set c .finished).next c = none ∧
      (schedExit s ticks).1.view = s.view.set c .finished ∧ (schedExit s ticks).2 = none) := by
  have hview := view_setTask s c fun t => { t with state := .finished }
  have hready : nextReady (s.setTask c fun t => { t with state := .finished }) c =
      (s.view.set c .finished).next c := by
    rw [nextReady_eq, hview]
  cases hnext : (s.view.set c .finished).next c with
  | none =>
    have hexit : schedExit s ticks =
        (s.setTask c fun t => { t with state := .finished }, none) := by
      simp only [schedExit, hcur, hready, hnext]
    rw [hexit]
    exact .inr ⟨rfl, hview, rfl⟩
  | some n =>
    have hexit : schedExit s ticks =
        (switchIn (s.setTask c fun t => { t with state := .finished }) ticks n,
          some ⟨c, n⟩) := by
      simp only [schedExit, hcur, hready, hnext]
    rw [hexit]
    exact .inl ⟨n, rfl, by simp only [view_switchIn, hview], rfl⟩

lemma schedExit_effect {e : Event} (ticks : Nat) (hcur : s.current = some c)
  (hwhy : Retires s e c) : Effect s e (schedExit s ticks).1.view (schedExit s ticks).2 := by
  rcases schedExit_cases ticks hcur with ⟨n, hnext, hview, hdispatch⟩ | ⟨hnone, hview, hdispatch⟩
  · rw [hview, hdispatch]
    exact .retired c n hwhy hcur hnext
  rw [hview, hdispatch]
  exact .parked c hwhy hcur hnone

lemma setTask_finished_idem (s : State) (c : Nat) :
  (s.setTask c fun t => { t with state := .finished }).setTask c
      (fun t => { t with state := .finished }) =
    s.setTask c fun t => { t with state := .finished } := by
  simp [State.setTask]

lemma schedYield_of_killPending (ticks : YieldTicks) (hcur : s.current = some c)
  (hkill : (s.tasks c).killPending = true) : schedYield s ticks = schedExit s ticks.handoff := by
  simp only [schedYield, hcur, hkill, if_true]
  cases hnext : nextReady (s.setTask c fun t => { t with state := .finished }) c with
  | none =>
    simp only [schedExit, State.setTask_current, hcur, setTask_finished_idem, hnext]
  | some n => simp only [schedExit, hcur, hnext]

lemma schedYield_effect (ticks : YieldTicks) (hcur : s.current = some c) :
  Effect s (.yield ticks) (schedYield s ticks).1.view (schedYield s ticks).2 := by
  by_cases hkill : (s.tasks c).killPending = true
  · rw [schedYield_of_killPending ticks hcur hkill]
    exact schedExit_effect _ hcur (.inr ⟨⟨ticks, rfl⟩, hkill⟩)
  -- The ticks and the cleared counter do not show in the view.
  have hview : (onTicks ticks.scan ((onTicks ticks.verdict s).setTask c
      fun t => { t with starvedTicks := 0 })).view = s.view := by
    rw [view_onTicks, view_setTask_of_state _ _ _ rfl, view_onTicks]
  simp only [schedYield, hcur, hkill, nextReady_eq, hview]
  cases hnext : s.view.next c with
  | none =>
    simp only [Bool.false_eq_true, if_false, hview]
    exact .quiet fun _ h => h
  | some n =>
    simp only [Bool.false_eq_true, if_false, view_switchIn, view_setTask, hview]
    exact .handed c n hcur hnext

lemma spawnSlot_effect {e : Event} (valid : Bool) (fill : Task → Task)
  (hfill : ∀ t, (fill t).state = .ready)
  (hinto : ∀ slot, (spawnSlot s valid fill).1 = some slot ↔ SpawnsInto s e slot) :
  Effect s e (spawnSlot s valid fill).2.view none := by
  rcases spawnSlot_cases s valid fill with heq | ⟨slot, halloc, heq⟩
  · rw [heq] at hinto ⊢
    exact .quiet fun slot hslot => by cases (hinto slot).mpr hslot
  obtain ⟨hlt, hfree⟩ := slotAlloc_some halloc
  have hspawned := (hinto slot).mp (by rw [heq])
  rw [heq]
  simp only [view_setTask, hfill]
  exact .spawned slot hspawned hlt hfree

lemma react_effect (s : State) (e : Event) (hadmits : admits s e) :
  Effect s e (react s e).1.view (react s e).2 := by
  cases e with
  | spawn name entry stack stackLen =>
    exact spawnSlot_effect _ _ (fun _ => rfl) fun _ => Iff.rfl
  | spawnUser name as uentry usp pid stack stackLen =>
    exact spawnSlot_effect _ _ (fun _ => rfl) fun _ => Iff.rfl
  | yield ticks =>
    obtain ⟨c, hcur, _⟩ := hadmits
    exact schedYield_effect ticks hcur
  | exit ticks =>
    obtain ⟨c, hcur, _⟩ := hadmits
    exact schedExit_effect ticks hcur (.inl ⟨ticks, rfl⟩)
  | tick =>
    simp only [react, view_schedOnTick]
    exact .quiet fun _ h => h
  | watchdogSet limit => exact .quiet fun _ h => h

end Aeos.Sched
