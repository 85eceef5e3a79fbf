/-
# Kernel context switches

Only `cpu_switch_to` and `task_trampoline` are written in assembly, once per port. A `Port` is
what `sched.c` assumes of them: where a call parks the context it is made in, and what it goes
on with when it finds a parked or a fresh context.

Memory is made of 64-bit words at aligned addresses. Each is owned by the saved register file of
a slot, by the stack of a slot, or is shared. A task may do anything to its registers, its own
stack and shared memory between two switches.
-/

import Aeos.Sched.Model

namespace Aeos.Switch

open Lib Sched List BitVec Function

abbrev Memory := BitVec 64 → BitVec 64

abbrev Slot := Fin maxTasks

inductive Owner
  /-- `tasks[slot].cpu.regs`. -/
  | area (slot : Slot)
  /-- The kernel stack of a slot. -/
  | stack (slot : Slot)
  | shared
  deriving DecidableEq

def reg (a : BitVec 64) (k : Nat) : BitVec 64 := a + BitVec.ofNat 64 (8 * k)

lemma reg_injective (a : BitVec 64) {j k : Nat} (hj : j < 15) (hk : k < 15)
  (heq : reg a j = reg a k) : j = k := by
  have hoff := congrArg BitVec.toNat (BitVec.add_right_inj a |>.mp heq)
  simp only [toNat_ofNat] at hoff
  omega

lemma nodup_reg {R : Type} (a : BitVec 64) {frame : List (R × Nat)}
  (hlt : ∀ p ∈ frame, p.2 < 15) (hslots : (frame.map Prod.snd).Nodup) :
  (frame.map fun p => reg a p.2).Nodup := by
  rw [nodup_map_iff_inj_on hslots.of_map]
  intro p hp q hq heq
  exact inj_on_of_nodup_map hslots hp hq (reg_injective a (hlt p hp) (hlt q hq) heq)

def IsReg (a w : BitVec 64) : Prop := ∃ k < 15, w = reg a k

/-- Where the tasks are and who owns which word. -/
structure Layout where
  area : Slot → BitVec 64
  owner : BitVec 64 → Owner
  owner_reg : ∀ i, ∀ k < 15, owner (reg (area i) k) = .area i

lemma Layout.owner_of_isReg (L : Layout) {i : Slot} {w : BitVec 64} (hw : IsReg (L.area i) w) :
  L.owner w = .area i := by
  obtain ⟨k, hk, rfl⟩ := hw
  exact L.owner_reg i k hk

/-! ## Crafting a context -/

def taskSetup (m : Memory) (a : BitVec 64) : Memory :=
  (List.range 15).foldl (fun m i => update m (reg a i) 0) m

def spTop (stack len : BitVec 64) : BitVec 64 := (stack + len) &&& ~~~0xF#64

def craft (m : Memory) (a first lr top : BitVec 64) : Memory :=
  update (update (update (taskSetup m a) (reg a 0) first)
    (reg a 11) lr) (reg a 12) top

/-- The labels of the assembly, and of the C functions it refers to. -/
structure Symbols where
  taskTrampoline : BitVec 64
  /-- The instruction of `task_trampoline` after its call. -/
  afterCall : BitVec 64
  /-- `.resume` in the x86 `switch.S`. -/
  resume : BitVec 64
  schedExit : BitVec 64
  /-- What `sched_spawn_user_task` puts in `regs[11]`. -/
  userEntry : BitVec 64
  afterCall_ne : afterCall ≠ taskTrampoline
  resume_ne : resume ≠ taskTrampoline

def schedSpawn (sym : Symbols) (L : Layout) (m : Memory) (slot : Option Slot)
  (entry stack len : BitVec 64) : Option Memory :=
  match slot with
  | none => none
  | some slot =>
    if entry = 0 ∨ stack = 0 ∨ len.toNat < 256 then none
    else some (craft m (L.area slot) entry sym.taskTrampoline (spTop stack len))

def schedSpawnUserTask (sym : Symbols) (L : Layout) (m : Memory) (slot : Option Slot)
  (uentry usp stack len : BitVec 64) : Option Memory :=
  match slot with
  | none => none
  | some slot =>
    if uentry = 0 ∨ usp = 0 ∨ stack = 0 ∨ len.toNat < 256 then none
    else some (craft m (L.area slot) 0 sym.userEntry (spTop stack len))

structure Crafted (m : Memory) (a first lr top : BitVec 64) : Prop where
  first : m (reg a 0) = first
  lr : m (reg a 11) = lr
  top : m (reg a 12) = top

lemma crafted_craft (m : Memory) (a first lr top : BitVec 64) :
  Crafted (craft m a first lr top) a first lr top := by
  have h0 : reg a 0 ≠ reg a 11 :=
    fun h => absurd (reg_injective a (by omega) (by omega) h) (by omega)
  have h0' : reg a 0 ≠ reg a 12 :=
    fun h => absurd (reg_injective a (by omega) (by omega) h) (by omega)
  have h11 : reg a 11 ≠ reg a 12 :=
    fun h => absurd (reg_injective a (by omega) (by omega) h) (by omega)
  constructor
  · rw [craft, update_of_ne h0', update_of_ne h0, update_self]
  · rw [craft, update_of_ne h11, update_self]
  · rw [craft, update_self]

lemma Crafted.congr {m m' : Memory} {a first lr top : BitVec 64}
  (h : Crafted m a first lr top) (hmem : ∀ w, IsReg a w → m' w = m w) :
  Crafted m' a first lr top where
  first := (hmem _ ⟨0, by omega, rfl⟩).trans h.first
  lr := (hmem _ ⟨11, by omega, rfl⟩).trans h.lr
  top := (hmem _ ⟨12, by omega, rfl⟩).trans h.top

lemma taskSetup_outside (m : Memory) {a w : BitVec 64} (hw : ¬ IsReg a w) :
  taskSetup m a w = m w := by
  have hloop : ∀ (ks : List Nat) (m : Memory), (∀ k ∈ ks, k < 15) →
      ks.foldl (fun m i => update m (reg a i) 0) m w = m w := by
    intro ks
    induction ks with
    | nil => exact fun _ _ => rfl
    | cons k ks ih =>
      intro m hks
      obtain ⟨hk, hks⟩ := forall_mem_cons.mp hks
      rw [foldl_cons, ih _ hks]
      exact update_of_ne (fun heq => hw ⟨k, hk, heq⟩) _ _
  exact hloop _ m fun k hk => mem_range.mp hk

lemma craft_outside (m : Memory) {a w : BitVec 64} (first lr top : BitVec 64)
  (hw : ¬ IsReg a w) : craft m a first lr top w = m w := by
  have hne : ∀ k < 15, w ≠ reg a k := fun k hk heq => hw ⟨k, hk, heq⟩
  rw [craft, update_of_ne (hne 12 (by omega)), update_of_ne (hne 11 (by omega)),
    update_of_ne (hne 0 (by omega)), taskSetup_outside m hw]

lemma toNat_spTop (stack len : BitVec 64) (hfits : stack.toNat + len.toNat < 2 ^ 64) :
  (spTop stack len).toNat = (stack.toNat + len.toNat) / 16 * 16 := by
  have hmask : (~~~0xF#64).toNat = bitsFrom 4 64 := by decide
  rw [spTop, toNat_and, hmask, and_bitsFrom (by omega), toNat_add,
    Nat.mod_mod, Nat.mod_eq_of_lt hfits]
  rfl

structure Context where
  saved : List (BitVec 64)
  sp : BitVec 64
  pc : BitVec 64
  deriving DecidableEq

/-- A port. `switchTo c prev next` is the call `cpu_switch_to(prev, next)` made in `c`, up to
where control leaves the function. `step` executes one instruction of `task_trampoline`. -/
structure Port (sym : Symbols) where
  Core : Type
  mem : Core → Memory
  setMem : Core → Memory → Core
  context : Core → Context
  switchTo : Core → BitVec 64 → BitVec 64 → Core
  step : Core → Core
  /-- In a function just entered: the address it returns to. -/
  returnTo : Core → BitVec 64
  /-- In a function just entered: the stack pointer of its caller. -/
  frameTop : Core → BitVec 64
  /-- The words of the stack that the call itself uses. -/
  Anchor : Context → BitVec 64 → Prop
  /-- The task at an address is parked with a context. -/
  Parked : Memory → BitVec 64 → Context → Prop
  mem_setMem : ∀ c m, mem (setMem c m) = m
  parked_congr : ∀ {m m' a ctx}, Parked m a ctx → (∀ w, IsReg a w → m' w = m w) →
    (∀ w, Anchor ctx w → m' w = m w) → Parked m' a ctx
  mem_switchTo : ∀ {c prev next w}, ¬ IsReg prev w → ¬ Anchor (context c) w →
    mem (switchTo c prev next) w = mem c w
  parked_switchTo : ∀ {c prev next}, (∀ w, Anchor (context c) w → ¬ IsReg prev w) →
    Parked (mem (switchTo c prev next)) prev (context c)
  context_switchTo : ∀ {c prev next ctx}, Parked (mem (switchTo c prev next)) next ctx →
    context (switchTo c prev next) = ctx
  enters : ∀ {c prev next first top},
    Crafted (mem (switchTo c prev next)) next first sym.taskTrampoline top →
    (context (step (switchTo c prev next))).pc = first ∧
      returnTo (step (switchTo c prev next)) = sym.afterCall ∧
      frameTop (step (switchTo c prev next)) = top
  exits : ∀ {c}, (context c).pc = sym.afterCall → (context (step c)).pc = sym.schedExit

section
variable {sym : Symbols} (P : Port sym) (L : Layout)

structure State where
  core : P.Core
  cur : Slot

inductive Event
  /-- Anything between two calls into the scheduler. -/
  | work (core : P.Core)
  /-- `cpu_switch_to(&tasks[cur], &tasks[next])`. -/
  | switchTo (next : Slot)
  /-- `sched_spawn`, with the result of `slot_alloc`. -/
  | spawn (slot : Option Slot) (entry stack len : BitVec 64)
  /-- `sched_spawn_user_task`, with the result of `slot_alloc`. -/
  | spawnUser (slot : Option Slot) (uentry usp stack len : BitVec 64)

def Event.Concerns (t : Slot) : Event P → Prop
  | .work _ => False
  | .switchTo next => next = t
  | .spawn slot _ _ _ => slot = some t
  | .spawnUser slot _ _ _ _ => slot = some t

def State.store (s : State P) (m : Option Memory) : State P :=
  { s with core := P.setMem s.core (m.getD (P.mem s.core)) }

/-- Tasks sharing a processor. The slot that `slot_alloc` finds is not the running one's, and a
switch is made on the running task's own stack. -/
def machine : Machine (State P) (Event P) where
  init _ := True
  enabled s
    | .work core => ∀ w, L.owner w ≠ .stack s.cur → L.owner w ≠ .shared →
        P.mem core w = P.mem s.core w
    | .switchTo _ => ∀ w, P.Anchor (P.context s.core) w → L.owner w = .stack s.cur
    | .spawn slot _ _ _ => slot ≠ some s.cur
    | .spawnUser slot _ _ _ _ => slot ≠ some s.cur
  step s
    | .work core => { s with core := core }
    | .switchTo next =>
      { core := P.switchTo s.core (L.area s.cur) (L.area next), cur := next }
    | .spawn slot entry stack len =>
      s.store P (schedSpawn sym L (P.mem s.core) slot entry stack len)
    | .spawnUser slot uentry usp stack len =>
      s.store P (schedSpawnUserTask sym L (P.mem s.core) slot uentry usp stack len)

/-- The next instruction calls `entry` on a stack that is empty up to `top`, and from where it
returns to, the task goes to `sched_exit`. -/
structure Entering (c : P.Core) (entry top : BitVec 64) : Prop where
  pc : (P.context (P.step c)).pc = entry
  frameTop : P.frameTop (P.step c) = top
  returning : ∀ c', (P.context c').pc = P.returnTo (P.step c) →
    (P.context (P.step c')).pc = sym.schedExit

structure Transparent : Prop where
  /-- A task that is switched out, and later switched in, goes on after its call with
  its registers, its stack pointer and its stack. -/
  resumes : ∀ {s u : State P} {next : Slot} {es : List (Event P)}, next ≠ s.cur →
    (machine P L).Run s (.switchTo next :: es) u → (∀ e ∈ es, ¬ e.Concerns P s.cur) →
    (machine P L).enabled u (.switchTo s.cur) →
      P.context ((machine P L).step u (.switchTo s.cur)).core = P.context s.core ∧
      ∀ w, L.owner w = .stack s.cur → ¬ P.Anchor (P.context s.core) w →
        P.mem ((machine P L).step u (.switchTo s.cur)).core w = P.mem s.core w
  /-- So does a task that switches to itself. -/
  resumes_self : ∀ {s : State P}, (machine P L).enabled s (.switchTo s.cur) →
    P.context ((machine P L).step s (.switchTo s.cur)).core = P.context s.core
  /-- The first switch to a task spawned on a stack enters its entry function there. -/
  enters : ∀ {s u : State P} {t : Slot} {entry stack len : BitVec 64} {es : List (Event P)},
    entry ≠ 0 → stack ≠ 0 → 256 ≤ len.toNat → stack.toNat + len.toNat < 2 ^ 64 →
    (machine P L).Run s (.spawn (some t) entry stack len :: es) u →
    (∀ e ∈ es, ¬ e.Concerns P t) → (machine P L).enabled u (.switchTo t) →
      Entering P ((machine P L).step u (.switchTo t)).core entry (spTop stack len) ∧
      (spTop stack len).toNat % 16 = 0 ∧ stack.toNat < (spTop stack len).toNat ∧
      (spTop stack len).toNat ≤ stack.toNat + len.toNat

end

/-! ## What the others do -/

section
variable {sym : Symbols} {P : Port sym} {L : Layout}

def Layout.Holds (L : Layout) (t : Slot) (w : BitVec 64) : Prop :=
  L.owner w = .area t ∨ L.owner w = .stack t

lemma mem_store (s : State P) (m : Option Memory) :
  P.mem (s.store P m).core = m.getD (P.mem s.core) := P.mem_setMem _ _

variable {i t : Slot} {w : BitVec 64} {s : State P}

section
variable (hw : L.Holds t w)
include hw

lemma Layout.Holds.ne_area (hne : i ≠ t) : L.owner w ≠ .area i := by
  intro hown
  rcases hw with h | h <;> rw [hown] at h
  · exact hne (Owner.area.inj h)
  · cases h

lemma Layout.Holds.ne_stack (hne : i ≠ t) : L.owner w ≠ .stack i := by
  intro hown
  rcases hw with h | h <;> rw [hown] at h
  · cases h
  · exact hne (Owner.stack.inj h)

lemma Layout.Holds.ne_shared : L.owner w ≠ .shared := by
  intro hown
  rcases hw with h | h <;> rw [hown] at h <;> cases h

lemma not_isReg_of_holds (hne : i ≠ t) : ¬ IsReg (L.area i) w :=
  fun hreg => hw.ne_area hne (L.owner_of_isReg hreg)

end

lemma craft_outside_holds (m : Memory) (hne : some i ≠ some t) (refused : Prop)
  [Decidable refused] (first lr top : BitVec 64) (hw : L.Holds t w) :
  (if refused then none else some (craft m (L.area i) first lr top)).getD m w = m w := by
  split
  · rfl
  · exact craft_outside m _ _ _ (not_isReg_of_holds hw fun h => hne (congrArg some h))

variable {slot : Option Slot}

lemma schedSpawn_outside (m : Memory) (hslot : slot ≠ some t)
  (entry stack len : BitVec 64) (hw : L.Holds t w) :
  (schedSpawn sym L m slot entry stack len).getD m w = m w := by
  cases slot with
  | none => rfl
  | some i => exact craft_outside_holds m hslot _ _ _ _ hw

lemma schedSpawnUserTask_outside (m : Memory) (hslot : slot ≠ some t)
  (uentry usp stack len : BitVec 64) (hw : L.Holds t w) :
  (schedSpawnUserTask sym L m slot uentry usp stack len).getD m w = m w := by
  cases slot with
  | none => rfl
  | some i => exact craft_outside_holds m hslot _ _ _ _ hw

lemma mem_switchTo_of_holds {next : Slot} (hcur : s.cur ≠ t)
  (henabled : (machine P L).enabled s (.switchTo next)) (hw : L.Holds t w) :
  P.mem ((machine P L).step s (.switchTo next)).core w = P.mem s.core w := by
  apply P.mem_switchTo
  · exact not_isReg_of_holds hw hcur
  · exact fun hanchor => hw.ne_stack hcur (henabled w hanchor)

lemma step_others {e : Event P} (hcur : s.cur ≠ t) (he : ¬ e.Concerns P t)
  (henabled : (machine P L).enabled s e) : ((machine P L).step s e).cur ≠ t ∧
    ∀ w, L.Holds t w → P.mem ((machine P L).step s e).core w = P.mem s.core w := by
  cases e with
  | work core =>
    exact ⟨hcur, fun w hw => henabled w (hw.ne_stack hcur) hw.ne_shared⟩
  | switchTo next => exact ⟨he, fun w hw => mem_switchTo_of_holds hcur henabled hw⟩
  | spawn slot entry stack len =>
    refine ⟨hcur, fun w hw => ?_⟩
    show P.mem (s.store P _).core w = _
    rw [mem_store]
    exact schedSpawn_outside _ he entry stack len hw
  | spawnUser slot uentry usp stack len =>
    refine ⟨hcur, fun w hw => ?_⟩
    show P.mem (s.store P _).core w = _
    rw [mem_store]
    exact schedSpawnUserTask_outside _ he uentry usp stack len hw

variable {es : List (Event P)}

lemma run_others {u : State P} (hrun : (machine P L).Run s es u)
  (hcur : s.cur ≠ t) (hes : ∀ e ∈ es, ¬ e.Concerns P t) :
  u.cur ≠ t ∧ ∀ w, L.Holds t w → P.mem u.core w = P.mem s.core w := by
  induction hrun with
  | nil => exact ⟨hcur, fun _ _ => rfl⟩
  | cons henabled _ ih =>
    obtain ⟨he, hes⟩ := forall_mem_cons.mp hes
    obtain ⟨hcur', hmem⟩ := step_others hcur he henabled
    obtain ⟨hend, hmem'⟩ := ih hcur' hes
    exact ⟨hend, fun w hw => (hmem' w hw).trans (hmem w hw)⟩

lemma run_back_others {u : State P} (hrun : (machine P L).Run s es u)
  (hcur : s.cur ≠ t) (hes : ∀ e ∈ es, ¬ e.Concerns P t)
  (hback : (machine P L).enabled u (.switchTo t)) (hw : L.Holds t w) :
  P.mem ((machine P L).step u (.switchTo t)).core w = P.mem s.core w := by
  obtain ⟨hend, hmem⟩ := run_others hrun hcur hes
  exact (mem_switchTo_of_holds hend hback hw).trans (hmem w hw)

end

section
variable {sym : Symbols} {P : Port sym} {L : Layout}

lemma anchor_not_isReg {s : State P} {next : Slot}
  (henabled : (machine P L).enabled s (.switchTo next)) {w : BitVec 64}
  (hw : P.Anchor (P.context s.core) w) : ¬ IsReg (L.area s.cur) w := by
  intro hreg
  have hown := henabled w hw
  rw [L.owner_of_isReg hreg] at hown
  cases hown

variable {es : List (Event P)}

lemma resumes {s u : State P} {next : Slot} (hnext : next ≠ s.cur)
  (hrun : (machine P L).Run s (.switchTo next :: es) u) (hes : ∀ e ∈ es, ¬ e.Concerns P s.cur)
  (hback : (machine P L).enabled u (.switchTo s.cur)) :
  P.context ((machine P L).step u (.switchTo s.cur)).core = P.context s.core ∧
    ∀ w, L.owner w = .stack s.cur → ¬ P.Anchor (P.context s.core) w →
      P.mem ((machine P L).step u (.switchTo s.cur)).core w = P.mem s.core w := by
  cases hrun with
  | cons hout hrest =>
    have hparked : P.Parked (P.mem ((machine P L).step s (.switchTo next)).core)
        (L.area s.cur) (P.context s.core) :=
      P.parked_switchTo fun _ hw => anchor_not_isReg hout hw
    -- nobody else writes the register file or the stack of the task
    have hmem := fun w => run_back_others (w := w) hrest hnext hes hback
    constructor
    · apply P.context_switchTo
      apply P.parked_congr hparked
      · exact fun w hw => hmem w (.inl (L.owner_of_isReg hw))
      · exact fun w hw => hmem w (.inr (hout w hw))
    intro w hown hanchor
    rw [hmem w (.inr hown)]
    apply P.mem_switchTo _ hanchor
    intro hreg
    rw [L.owner_of_isReg hreg] at hown
    cases hown

lemma crafted_spawn (s : State P) (t : Slot) {entry stack len : BitVec 64} (hentry : entry ≠ 0)
  (hstack : stack ≠ 0) (hlen : 256 ≤ len.toNat) :
  Crafted (P.mem ((machine P L).step s (.spawn (some t) entry stack len)).core) (L.area t)
    entry sym.taskTrampoline (spTop stack len) := by
  show Crafted (P.mem (s.store P _).core) _ _ _ _
  rw [mem_store, schedSpawn, if_neg (by simp only [hentry, hstack, false_or]; omega)]
  exact crafted_craft _ _ _ _ _

lemma spTop_bounds {stack len : BitVec 64} (hlen : 256 ≤ len.toNat)
  (hfits : stack.toNat + len.toNat < 2 ^ 64) :
  (spTop stack len).toNat % 16 = 0 ∧ stack.toNat < (spTop stack len).toNat ∧
    (spTop stack len).toNat ≤ stack.toNat + len.toNat := by
  rw [toNat_spTop stack len hfits]
  omega

lemma enters {s u : State P} {t : Slot} {entry stack len : BitVec 64}
  (hentry : entry ≠ 0) (hstack : stack ≠ 0) (hlen : 256 ≤ len.toNat)
  (hrun : (machine P L).Run s (.spawn (some t) entry stack len :: es) u)
  (hes : ∀ e ∈ es, ¬ e.Concerns P t) (hback : (machine P L).enabled u (.switchTo t)) :
  Entering P ((machine P L).step u (.switchTo t)).core entry (spTop stack len) := by
  cases hrun with
  | cons hspawn hrest =>
    have hcur : s.cur ≠ t := fun h => hspawn (congrArg some h.symm)
    have hcrafted := (crafted_spawn (L := L) s t hentry hstack hlen).congr
      fun _ hw => run_back_others hrest hcur hes hback (.inl (L.owner_of_isReg hw))
    obtain ⟨hpc, hreturn, htop⟩ := P.enters hcrafted
    exact ⟨hpc, htop, fun c' hc' => P.exits (hc'.trans hreturn)⟩

lemma transparent (P : Port sym) (L : Layout) : Transparent P L where
  resumes := resumes
  resumes_self henabled :=
    P.context_switchTo (P.parked_switchTo fun _ hw => anchor_not_isReg henabled hw)
  enters hentry hstack hlen hfits hrun hes hback :=
    ⟨enters hentry hstack hlen hrun hes hback, spTop_bounds hlen hfits⟩

end
end Aeos.Switch
