/-
# The watchdog

The watchdog marks a task that has run for too long, and `sched_yield` ends a task that
it finds marked.
-/

import Aeos.Sched.Quantum

namespace Aeos.Sched

open Lib

/-- The scheduler under observation, and whether `sched_watchdog_set` was called. -/
structure Watch where
  obs : Observed
  set : Bool

def setsOnce (limit : UInt32) (set : Bool) : Event → Bool
  | .watchdogSet l => set = false ∧ l = limit
  | _ => true

def isSet : Event → Bool
  | .watchdogSet _ => true
  | _ => false

/-- The value that `watchdog_limit` starts with; `sched_init` leaves it. -/
def initialLimit : UInt32 := 600

/-- Runs in which the limit is set at most once after `sched_init`. Until then the watchdog works
with the limit it starts with. -/
def watched (limit : UInt32) : Machine Watch Event where
  init w := observer.init w.obs ∧ w.obs.sched.watchdogLimit = initialLimit ∧ w.set = false
  enabled w e := observer.enabled w.obs e ∧ setsOnce limit w.set e = true
  step w e := ⟨observe w.obs e, w.set || isSet e⟩

/-- A task that is not the boot context and has run for the limit since it last yielded is marked.
-/
def MarksAll (limit : UInt32) (o : Observed) : Prop :=
  ∀ i < maxTasks, (i = 0 → o.boot = false) → limit.toNat ≤ (o.gauge i).ran →
    (o.sched.tasks i).killPending = true

/-- The call of `sched_yield` comes back with its caller marked, at once or when the slot
is dispatched again. -/
def LetsGo (s : State) : Event → Prop
  | .yield ticks => ∃ c, s.current = some c ∧
    ((schedYield s ticks).1.tasks c).killPending = true ∧
    ((schedYield s ticks).1.tasks c).state ≠ .finished
  | _ => False

/-- The ticks inside the call bring the counter to the limit, before it is cleared or
after. -/
def MarksInside (s : State) : Event → Prop
  | .yield ticks => ∃ c, s.current = some c ∧ (s.tasks c).killPending = false ∧
    (s.watchdogLimit ≠ 0 ∧ c ≠ 0) ∧
    (s.watchdogLimit.toNat ≤ (s.tasks c).starvedTicks.toNat + ticks.verdict ∨
      s.watchdogLimit.toNat ≤ ticks.scan)
  | _ => False

/-- After the step every task but the boot context is marked in time, where the limit has been
set, and the step is no return of a marked task from `sched_yield`. -/
def Spares (limit : UInt32) (w : Watch) (e : Event) : Prop :=
  ((w.set || isSet e) = true → MarksAll limit (observe w.obs e)) ∧ ¬ LetsGo w.obs.sched e

/-- A tick brings slot 0 to the limit after the boot context has left it, or the limit is set when
an unmarked task has already run for as long. -/
def Overruns (limit : UInt32) (w : Watch) : Event → Prop
  | .tick => w.set = true ∧ w.obs.boot = false ∧ Executing w.obs.sched ∧
    w.obs.sched.current = some 0 ∧ limit.toNat ≤ (w.obs.gauge 0).ran + 1
  | .yield ticks => w.set = true ∧ w.obs.boot = false ∧ w.obs.sched.current = some 0 ∧
    limit.toNat ≤ ticks.scan
  | .watchdogSet _ => ∃ i < maxTasks, (i = 0 → w.obs.boot = false) ∧
    limit.toNat ≤ (w.obs.gauge i).ran ∧ (w.obs.sched.tasks i).killPending = false
  | _ => False

/-! ## The mark -/

variable {limit l : UInt32} {slot i : Nat} {t : Task} {g : Gauge} {s : State} {c : Nat}

lemma tickTask_killPending (limit : UInt32) (slot : Nat) (t : Task) :
  (tickTask limit slot t).killPending = (t.killPending ||
    decide ((limit ≠ 0 ∧ slot ≠ 0) ∧ limit ≤ t.starvedTicks + 1)) := by
  simp only [tickTask]
  cases hkill : t.killPending <;> split_ifs <;> simp_all

lemma toNat_succ_of_lt {x : UInt32} (hx : x.toNat < limit.toNat) : (x + 1).toNat = x.toNat + 1 := by
  have hlt := limit.toNat_lt
  rw [UInt32.toNat_add, UInt32.toNat_one, Nat.mod_eq_of_lt (by omega)]

lemma marked_by_tick_iff (hkill : t.killPending = false) (hcounts : limit ≠ 0 ∧ slot ≠ 0)
  (hbelow : t.starvedTicks.toNat < limit.toNat) :
  (tickTask limit slot t).killPending = true ↔ limit.toNat ≤ t.starvedTicks.toNat + 1 := by
  rw [tickTask_killPending, hkill, Bool.false_or, decide_eq_true_iff, and_iff_right hcounts,
    UInt32.le_iff_toNat_le, toNat_succ_of_lt hbelow]

/-- What the counter and the mark of a slot say about its ticks while the limit is `l`. -/
structure Judged (l : UInt32) (i : Nat) (t : Task) (g : Gauge) : Prop where
  limit : l ≠ 0
  counter : t.starvedTicks = UInt32.ofNat g.counted
  exempt : i = 0 → g.counted = 0 ∧ t.killPending = false
  counts : i ≠ 0 → g.counted = g.ran
  unmarked : t.killPending = false → g.counted < l.toNat

lemma toNat_pos_of_ne_zero (hlimit : limit ≠ 0) : 0 < limit.toNat :=
  Nat.pos_of_ne_zero fun hzero => hlimit (UInt32.toNat_inj.mp hzero)

namespace Judged

variable (h : Judged l i t g)
include h

lemma cleared {t' : Task} (hstarved : t'.starvedTicks = 0)
    (hkill : t'.killPending = true → t.killPending = true) : Judged l i t' ⟨0, 0⟩ where
  limit := h.limit
  counter := hstarved
  exempt hzero := ⟨rfl, by simpa [(h.exempt hzero).2] using hkill⟩
  counts _ := rfl
  unmarked _ := toNat_pos_of_ne_zero h.limit

lemma starved_eq (hkill : t.killPending = false) : t.starvedTicks.toNat = g.counted := by
  have hlt := h.unmarked hkill
  rw [h.counter, UInt32.toNat_ofNat', Nat.mod_eq_of_lt (hlt.trans l.toNat_lt)]

lemma tick : Judged l i (tickTask l i t) (g.tick l i) := by
  by_cases hzero : i = 0
  · -- Neither the counter nor the mark of slot 0 moves.
    have hexempt : ¬ (l ≠ 0 ∧ i ≠ 0) := fun hcounts => hcounts.2 hzero
    have hcounted : (g.tick l i).counted = g.counted := if_neg hexempt
    have hkill : (tickTask l i t).killPending = false := by
      rw [tickTask_killPending, (h.exempt hzero).2]
      simp [hexempt]
    refine ⟨h.limit, ?_, fun _ => ⟨hcounted.trans (h.exempt hzero).1, hkill⟩,
      fun hne => absurd hzero hne, fun _ => ?_⟩
    · rw [tickTask_starvedTicks, if_neg hexempt, hcounted, h.counter]
    · rw [hcounted]
      exact h.unmarked (h.exempt hzero).2
  have hcounts : l ≠ 0 ∧ i ≠ 0 := ⟨h.limit, hzero⟩
  have hcounted : (g.tick l i).counted = g.counted + 1 := if_pos hcounts
  refine ⟨h.limit, ?_, fun heq => absurd heq hzero, fun _ => ?_, fun hkill => ?_⟩
  · rw [tickTask_starvedTicks, if_pos hcounts, h.counter, hcounted, UInt32.ofNat_add]
    rfl
  · rw [hcounted, h.counts hzero]
    rfl
  have hbefore : t.killPending = false := by
    rw [tickTask_killPending, Bool.or_eq_false_iff] at hkill
    exact hkill.1
  have hstarved := h.starved_eq hbefore
  have hnot := (marked_by_tick_iff hbefore hcounts (hstarved ▸ h.unmarked hbefore)).not.mp
    (by simp [hkill])
  omega

end Judged

lemma kept_judged : Kept Judged where
  congr hstarved hkill h :=
    ⟨h.limit, hstarved.trans h.counter, fun hzero =>
      ⟨(h.exempt hzero).1, hkill.trans (h.exempt hzero).2⟩, h.counts,
      fun hclean => h.unmarked (hkill ▸ hclean)⟩
  fresh hstarved hkill h := h.cleared hstarved (by simp [hkill])
  tick h := h.tick
  clear h := h.cleared rfl id

/-! ## Ticks inside `sched_yield` -/

lemma killPending_ticks (n : Nat) (hkill : t.killPending = true) :
  ((tickTask limit slot)^[n] t).killPending = true := by
  induction n generalizing t with
  | zero => exact hkill
  | succ n ih => exact ih (by rw [tickTask_killPending, hkill, Bool.true_or])

lemma marked_by_ticks_iff (n : Nat) (hkill : t.killPending = false)
  (hcounts : limit ≠ 0 ∧ slot ≠ 0) (hbelow : t.starvedTicks.toNat < limit.toNat) :
  ((tickTask limit slot)^[n] t).killPending = true ↔ limit.toNat ≤ t.starvedTicks.toNat + n := by
  induction n generalizing t with
  | zero => exact iff_of_false (by simp [hkill]) (by omega)
  | succ n ih =>
    have hfirst := marked_by_tick_iff hkill hcounts hbelow
    have hnext : (tickTask limit slot t).starvedTicks.toNat = t.starvedTicks.toNat + 1 := by
      rw [tickTask_starvedTicks, if_pos hcounts, toNat_succ_of_lt hbelow]
    rw [Function.iterate_succ_apply]
    cases hmark : (tickTask limit slot t).killPending with
    | true => exact iff_of_true (killPending_ticks n hmark) (by have := hfirst.mp hmark; omega)
    | false =>
      have hnot := hfirst.not.mp (by simp [hmark])
      rw [ih hmark (by omega), hnext]
      omega

lemma marked_by_yield_iff (ticks : YieldTicks) (hkill : t.killPending = false)
  (hcounts : limit ≠ 0 ∧ slot ≠ 0) (hbelow : t.starvedTicks.toNat < limit.toNat) :
  (yielded limit slot ticks t).killPending = true ↔
    limit.toNat ≤ t.starvedTicks.toNat + ticks.verdict ∨ limit.toNat ≤ ticks.scan := by
  have hverdict := marked_by_ticks_iff ticks.verdict hkill hcounts hbelow
  unfold yielded
  cases hmark : ((tickTask limit slot)^[ticks.verdict] t).killPending with
  | true => exact iff_of_true (killPending_ticks _ hmark) (.inl (hverdict.mp hmark))
  | false =>
    have hnot := hverdict.not.mp (by simp [hmark])
    have hscan := marked_by_ticks_iff
      (t := { (tickTask limit slot)^[ticks.verdict] t with starvedTicks := 0 }) ticks.scan hmark
      hcounts (Nat.zero_lt_of_lt hbelow)
    rw [hscan, or_iff_right hnot, UInt32.toNat_zero, Nat.zero_add]

lemma exempt_yielded (ticks : YieldTicks) (hexempt : ¬ (limit ≠ 0 ∧ slot ≠ 0)) :
  (yielded limit slot ticks t).killPending = t.killPending := by
  have hticks : ∀ n (t : Task), ((tickTask limit slot)^[n] t).killPending = t.killPending := by
    intro n
    induction n with
    | zero => exact fun _ => rfl
    | succ n ih =>
      intro t
      rw [Function.iterate_succ_apply, ih, tickTask_killPending]
      simp [hexempt]
  exact (hticks _ _).trans (hticks _ _)

lemma schedExit_finished (ticks : Nat) (hcur : s.current = some c) (hc : c < maxTasks) :
  ((schedExit s ticks).1.tasks c).state = .finished := by
  show (schedExit s ticks).1.view.st c = .finished
  rcases schedExit_cases ticks hcur with ⟨n, hnext, hview, _⟩ | ⟨_, hview, _⟩
  · obtain ⟨hne, _⟩ := View.of_set_st (by decide) (View.next_some hc hnext).2
    rw [hview, View.handTo_st_of_ne _ hne.symm, View.set_st_same]
  · rw [hview, View.set_st_same]

lemma schedYield_not_finished (ticks : YieldTicks) (hcur : s.current = some c)
  (hrun : (s.tasks c).state = .running) (hkill : (s.tasks c).killPending = false) :
  ((schedYield s ticks).1.tasks c).state ≠ .finished := by
  have heffect := schedYield_effect ticks hcur
  have hkept : ∀ c', s.current = some c' → ¬ Retires s (.yield ticks) c' := by
    rintro c' hcur' (⟨_, heq⟩ | ⟨_, hmarked⟩)
    · cases heq
    rw [← Option.some.inj (hcur.symm.trans hcur'), hkill] at hmarked
    cases hmarked
  show (schedYield s ticks).1.view.st c ≠ .finished
  generalize (schedYield s ticks).1.view = v, (schedYield s ticks).2 = d at heffect
  cases heffect with
  | quiet =>
    show (s.tasks c).state ≠ .finished
    simp [hrun]
  | spawned slot hinto => exact hinto.elim
  | handed c' n hcur' hnext =>
    obtain rfl := Option.some.inj (hcur.symm.trans hcur')
    by_cases hn : c = n
    · simp [← hn]
    · simp [View.handTo_st_of_ne _ hn]
  | retired c' n hwhy hcur' => exact absurd hwhy (hkept c' hcur')
  | parked c' hwhy hcur' => exact absurd hwhy (hkept c' hcur')

lemma letsGo_iff {gauge : Nat → Gauge} (h : AllSlots Judged s gauge)
    (hone : OneRunner s.view) {e : Event} (hadmits : admits s e) :
    LetsGo s e ↔ MarksInside s e := by
  cases e with
  | yield ticks =>
    obtain ⟨c, hcur, hrun⟩ := hadmits
    have hc := hone.lt hcur
    have hjudged := h c hc
    simp only [LetsGo, MarksInside, hcur, Option.some.injEq, exists_eq_left']
    cases hkill : (s.tasks c).killPending with
    | true =>
      rw [schedYield_of_killPending ticks hcur hkill]
      simp [schedExit_finished ticks.handoff hcur hc]
    | false =>
      have hafter := (schedYield_counters ticks hcur hrun hkill).kill c
      rw [State.setTask_tasks_same] at hafter
      rw [hafter, and_iff_left (schedYield_not_finished ticks hcur hrun hkill)]
      by_cases hcounts : s.watchdogLimit ≠ 0 ∧ c ≠ 0
      · have hbelow : (s.tasks c).starvedTicks.toNat < s.watchdogLimit.toNat := by
          rw [hjudged.starved_eq hkill]
          exact hjudged.unmarked hkill
        rw [marked_by_yield_iff ticks hkill hcounts hbelow]
        simp [hcounts]
      rw [exempt_yielded ticks hcounts, hkill]
      simp only [hcounts, Bool.false_eq_true, false_and, and_false]
  | spawn | spawnUser | exit | tick | watchdogSet => exact Iff.rfl

/-! ## Runs -/

variable {w : Watch} {o : Observed} {e : Event}

/-- The invariant of the runs in which nothing was missed so far. -/
structure Sparing (limit : UInt32) (w : Watch) : Prop where
  judged : AllSlots Judged w.obs.sched w.obs.gauge
  limit_eq : w.set = true → w.obs.sched.watchdogLimit = limit
  zero : w.set = true → w.obs.boot = false → (w.obs.gauge 0).ran < limit.toNat
  reachable : observer.Reachable w.obs

/-- Outside slot 0 the counter sees to the mark, so only slot 0 is left to be looked at. -/
lemma marksAll_iff (h : AllSlots Judged o.sched o.gauge) (hlimit : o.sched.watchdogLimit = limit) :
    MarksAll limit o ↔ (o.boot = false → (o.gauge 0).ran < limit.toNat) := by
  constructor
  · intro hmarks hboot
    by_contra hran
    have hkill := hmarks 0 (by decide) (fun _ => hboot) (not_lt.mp hran)
    rw [((h 0 (by decide)).exempt rfl).2] at hkill
    cases hkill
  intro hzero i hi hboot hran
  by_cases hi0 : i = 0
  · subst hi0
    exact absurd (hzero (hboot rfl)) (not_lt.mpr hran)
  by_contra hkill
  have hcounted := (h i hi).unmarked (by simpa using hkill)
  rw [(h i hi).counts hi0, hlimit] at hcounted
  omega

lemma watchdogLimit_react (hset : isSet e = false) (hadmits : admits s e) :
    (react s e).1.watchdogLimit = s.watchdogLimit := by
  have hspawn : ∀ valid fill, (spawnSlot s valid fill).2.watchdogLimit = s.watchdogLimit := by
    intro valid fill
    rcases spawnSlot_cases s valid fill with heq | ⟨slot, _, heq⟩ <;> rw [heq]
    rfl
  cases e with
  | spawn name entry stack stackLen => exact hspawn _ _
  | spawnUser name as uentry usp pid stack stackLen => exact hspawn _ _
  | yield ticks =>
    obtain ⟨c, hcur, hrun⟩ := hadmits
    cases hkill : (s.tasks c).killPending with
    | true =>
      rw [react, schedYield_of_killPending ticks hcur hkill]
      exact (sameCounters_schedExit s _).limit
    | false => exact (schedYield_counters ticks hcur hrun hkill).limit
  | exit ticks => exact (sameCounters_schedExit s ticks).limit
  | tick => exact onTicks_limit 1 s
  | watchdogSet l => cases hset

lemma ticks_ran (n : Nat) (g : Gauge) : ((Gauge.tick l i)^[n] g).ran = g.ran + n := by
  induction n generalizing g with
  | zero => rfl
  | succ n ih =>
    rw [Function.iterate_succ_apply, ih]
    show g.ran + 1 + n = g.ran + (n + 1)
    omega

namespace Sparing

variable (h : Sparing limit w)
include h

lemma judged_step (hlimit : limit ≠ 0) (henabled : (watched limit).enabled w e)
    (hset : isSet e = true → ¬ Overruns limit w e) :
    AllSlots Judged (observe w.obs e).sched (observe w.obs e).gauge := by
  refine h.judged.react kept_judged henabled.1 ?_
  rintro l rfl i hi
  obtain ⟨_, rfl⟩ := of_decide_eq_true henabled.2
  have hslot := h.judged i hi
  refine ⟨hlimit, hslot.counter, hslot.exempt, hslot.counts, fun hkill => ?_⟩
  by_cases hzero : i = 0
  · show (w.obs.gauge i).counted < l.toNat
    rw [(hslot.exempt hzero).1]
    exact toNat_pos_of_ne_zero hlimit
  -- An unmarked task outside slot 0 has run for less than the new limit.
  by_contra hcounted
  rw [hslot.counts hzero, not_lt] at hcounted
  exact hset rfl ⟨i, hi, fun heq => absurd heq hzero, hcounted, hkill⟩

lemma limit_step (henabled : (watched limit).enabled w e)
    (hset : (w.set || isSet e) = true) : (observe w.obs e).sched.watchdogLimit = limit := by
  cases hwhich : isSet e with
  | false =>
    rw [hwhich, Bool.or_false] at hset
    exact (watchdogLimit_react hwhich henabled.1).trans (h.limit_eq hset)
  | true =>
    cases e with
    | watchdogSet l => exact (of_decide_eq_true henabled.2).2
    | _ => cases hwhich

/-- Once the limit is set, the ticks of slot 0 stay below it exactly if none overruns it. -/
lemma zero_step_iff (hlimit : limit ≠ 0) (henabled : (watched limit).enabled w e)
    (hset : w.set = true) (hnot : isSet e = false) :
    ((observe w.obs e).boot = false → ((observe w.obs e).gauge 0).ran < limit.toNat) ↔
      ¬ Overruns limit w e := by
  have hzero := h.zero hset
  have hspawn : ∀ new, (w.obs.boot && decide (new ≠ some 0)) = false →
      (refill w.obs.gauge new 0).ran < limit.toNat := by
    rintro (_ | slot) hboot
    · exact hzero (by simpa using hboot)
    by_cases hslot : slot = 0
    · simpa [refill, hslot] using toNat_pos_of_ne_zero hlimit
    · simpa [refill, Ne.symm hslot] using hzero (by simpa [hslot] using hboot)
  cases e with
  | spawn | spawnUser => exact iff_of_true (hspawn _) id
  | exit ticks => exact iff_of_true (hspawn none) id
  | watchdogSet l => cases hnot
  | tick =>
    simp only [Overruns, hset, true_and, observe, gaugeAfter, filled, ne_eq, reduceCtorEq,
      not_false_eq_true, decide_true, Bool.and_true]
    cases hcur : w.obs.sched.current with
    | none => simpa [Executing, hcur] using hzero
    | some c =>
      by_cases hrun : (w.obs.sched.tasks c).state = .running
      · by_cases hc : c = 0
        · subst hc
          simp [Executing, hcur, hrun, Gauge.tick]
        · simpa [Executing, hcur, hrun, hc, Ne.symm hc] using hzero
      · simpa [Executing, hcur, hrun] using hzero
  | yield ticks =>
    obtain ⟨c, hcur, hrun⟩ := id henabled.1
    simp only [Overruns, hset, true_and, observe, gaugeAfter, hcur, Option.some.injEq, filled,
      ne_eq, reduceCtorEq, not_false_eq_true, decide_true, Bool.and_true]
    by_cases hc : c = 0
    · subst hc
      simp [((h.judged 0 (by decide)).exempt rfl).2, ticks_ran]
    · split_ifs <;> simpa [hc, Ne.symm hc] using hzero

lemma spares_iff (hlimit : limit ≠ 0) (henabled : (watched limit).enabled w e) :
    Spares limit w e ↔ ¬ (MarksInside w.obs.sched e ∨ Overruns limit w e) := by
  have hone := oneRunner_of_reachable (reachable_sched h.reachable)
  rw [Spares, letsGo_iff h.judged hone henabled.1, not_or, and_comm]
  refine and_congr_right fun _ => ?_
  cases hwhich : isSet e with
  | true =>
    cases e with
    | watchdogSet l => simp [MarksAll, Overruns, observe, gaugeAfter, refill, filled, react,
        schedWatchdogSet]
    | _ => cases hwhich
  | false =>
    rw [Bool.or_false]
    cases hset : w.set with
    | false =>
      refine iff_of_true (fun hfalse => absurd hfalse Bool.false_ne_true) fun hover => ?_
      cases e <;> simp_all [Overruns, isSet]
    | true =>
      rw [← h.zero_step_iff hlimit henabled hset hwhich, imp_iff_right rfl]
      refine marksAll_iff (h.judged_step hlimit henabled (by simp [hwhich])) ?_
      exact h.limit_step henabled (by simp [hset])

lemma step (hlimit : limit ≠ 0) (henabled : (watched limit).enabled w e)
    (hnot : ¬ (MarksInside w.obs.sched e ∨ Overruns limit w e)) :
    Sparing limit ((watched limit).step w e) := by
  have hjudged := h.judged_step hlimit henabled fun _ hover => hnot (.inr hover)
  refine ⟨hjudged, h.limit_step henabled, fun hset => ?_, h.reachable.step henabled.1⟩
  exact (marksAll_iff hjudged (h.limit_step henabled hset)).mp
    (((h.spares_iff hlimit henabled).mpr hnot).1 hset)

end Sparing

lemma sparing_of_init (hw : (watched limit).init w) : Sparing limit w := by
  obtain ⟨⟨before, mainName, hobs⟩, hlimit, hset⟩ := hw
  have hinitial : before.watchdogLimit = initialLimit := by
    rw [hobs] at hlimit
    exact hlimit
  refine ⟨?_, by simp [hset], by simp [hset], Machine.reachable_of_init ⟨_, _, hobs⟩⟩
  rw [hobs]
  refine allSlots_schedInit (fun i t hstarved hkill => ?_) mainName
  rw [hinitial]
  exact ⟨by decide, hstarved, fun _ => ⟨rfl, hkill⟩, fun _ => rfl, fun _ => by decide⟩

/-- In a run with a limit that is set once, the watchdog marks every task but the boot context in
time and no marked task comes back from `sched_yield` exactly if no step of the run lets a task
other than the boot context reach the limit in slot 0, sets the limit over an unmarked task that
has run for as long, or has ticks inside `sched_yield` that mark its caller. -/
theorem watchdog_spares_only_boot_iff {limit : UInt32} (hlimit : limit ≠ 0) {w w' : Watch}
    {events : List Event} (hw : (watched limit).init w)
    (hrun : (watched limit).Run w events w') :
    (∀ p ∈ (watched limit).history w events, Spares limit p.1 p.2) ↔
      ∀ p ∈ (watched limit).history w events,
        ¬ (MarksInside p.1.obs.sched p.2 ∨ Overruns limit p.1 p.2) :=
  hrun.history_all_iff (Sparing limit) (fun _ _ h henabled => h.spares_iff hlimit henabled)
    (fun _ _ h henabled hnot => h.step hlimit henabled hnot) (sparing_of_init hw)

instance (limit : UInt32) (w : Watch) (e : Event) : Decidable ((watched limit).enabled w e) :=
  inferInstanceAs (Decidable (observer.enabled w.obs e ∧ setsOnce limit w.set e = true))

instance (s : State) (e : Event) : Decidable (MarksInside s e) :=
  match e with
  | .yield ticks => inferInstanceAs (Decidable (∃ c ∈ s.current, (s.tasks c).killPending = false ∧
      (s.watchdogLimit ≠ 0 ∧ c ≠ 0) ∧
      (s.watchdogLimit.toNat ≤ (s.tasks c).starvedTicks.toNat + ticks.verdict ∨
        s.watchdogLimit.toNat ≤ ticks.scan)))
  | .spawn .. | .spawnUser .. | .exit _ | .tick | .watchdogSet _ => .isFalse id

instance (limit : UInt32) (w : Watch) (e : Event) : Decidable (Overruns limit w e) :=
  match e with
  | .tick | .yield _ => (inferInstance : Decidable (_ ∧ _))
  | .watchdogSet _ => (inferInstance : Decidable (∃ i < maxTasks, _))
  | .spawn .. | .spawnUser .. | .exit _ => .isFalse id

def bootWatch : Watch :=
  ⟨⟨schedInit ⟨fun _ => idleTask, none, 0, initialLimit⟩ [], 0, fun _ => ⟨0, 0⟩, true⟩, false⟩

lemma init_bootWatch (limit : UInt32) : (watched limit).init bootWatch :=
  ⟨⟨_, _, rfl⟩, rfl, rfl⟩

def secondRuns : List Event :=
  [.tick, .watchdogSet 3, .spawn [] 1 1 256, .yield ⟨1, 1, 0⟩, .tick, .yield ⟨1, 0, 0⟩,
    .yield ⟨0, 0, 0⟩, .tick, .tick, .tick]

theorem watchdog_spares_only_boot_second :
    (((secondRuns.foldl (watched 3).step bootWatch).obs.sched.tasks 1).killPending = true) ∧
    ∀ p ∈ (watched 3).history bootWatch secondRuns, Spares 3 p.1 p.2 := by
  refine ⟨by decide +kernel, (watchdog_spares_only_boot_iff (by decide) (init_bootWatch 3)
    (Machine.run_of_admitsAll bootWatch secondRuns (by decide +kernel))).mpr ?_⟩
  decide +kernel

/-- The boot task spawns a task and exits; that task spawns one into slot 0 and yields to it. -/
def bootReplaced : List Event :=
  [.watchdogSet 1, .spawn [] 1 1 256, .exit 0, .spawn [] 1 1 256, .yield ⟨0, 0, 0⟩, .tick]

/-- The task in slot 0 is not the boot context and is not marked. A task that is marked by
a tick inside `sched_yield` waits for its return. -/
theorem watchdog_spares_slot_zero :
    ((watched 1).Run bootWatch bootReplaced (bootReplaced.foldl (watched 1).step bootWatch) ∧
      ¬ MarksAll 1 (bootReplaced.foldl (watched 1).step bootWatch).obs) ∧
    (watched 3).admitsAll bootWatch (secondRuns.take 8) = true ∧
      LetsGo ((secondRuns.take 8).foldl (watched 3).step bootWatch).obs.sched
        (.yield ⟨2, 0, 0⟩) := by
  refine ⟨⟨Machine.run_of_admitsAll _ _ (by decide +kernel), fun hmarks => ?_⟩,
    by decide +kernel, 1, by decide +kernel⟩
  have hkill := hmarks 0 (by decide) (by decide +kernel) (by decide +kernel)
  revert hkill
  decide +kernel

end Aeos.Sched
