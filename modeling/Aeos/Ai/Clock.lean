/-
# The millisecond clock

`timer_get_ms` of `boot/aarch64/timer.c` takes ten milliseconds for every tick, the
length of a tick at the default rate.
-/

import Aeos.Ai.Engine
import Aeos.Lib.Machine
import Mathlib.Tactic.FieldSimp

namespace Aeos.Ai

open Lib List

def tickPerSec : Nat := 100

def timerGetMs (t : Timer) : Nat := t.ticks * (1000 / tickPerSec) % 2 ^ 64

/-- The timer with the rate it was last armed at, and the rates at which the ticks that have
passed were armed. -/
structure Clock where
  timer : Timer
  armedHz : Nat
  passed : List Nat

def timerArm (hz : Nat) : Nat := if hz = 0 then tickPerSec else hz

inductive ClockEvent
  /-- `timer_set_hz`, by `ai_on_tick` or anyone else. -/
  | setHz (hz : Nat)
  | interrupt

def Clock.react (c : Clock) : ClockEvent → Clock
  | .setHz hz =>
    let t := timerSetHz c.timer hz
    { c with timer := t, armedHz := timerArm t.hz }
  | .interrupt =>
    let t := timerHandler c.timer
    { timer := t, armedHz := timerArm t.hz, passed := c.passed ++ [c.armedHz] }

def startClock : Clock := ⟨⟨0, tickPerSec⟩, timerArm tickPerSec, []⟩

/-- Every sequence of rate changes and interrupts. -/
def clocked : Machine Clock ClockEvent where
  init c := c = startClock
  enabled _ _ := True
  step := Clock.react

def elapsedMs (rates : List Nat) : ℚ := (rates.map fun hz => 1000 / (hz : ℚ)).sum

/-- The clock is off by at most a millisecond per tick. -/
def MsAccurate (c : Clock) : Prop :=
  |(timerGetMs c.timer : ℚ) - elapsedMs c.passed| ≤ c.passed.length

/-- The condition on a tick: it was armed at a rate near the default, and the clock does
not overflow. -/
def nearDefault (c : Clock) : ClockEvent → Prop
  | .setHz _ => True
  | .interrupt => 91 ≤ c.armedHz ∧ c.armedHz ≤ 111 ∧ (c.timer.ticks + 1) * 10 < 2 ^ 64

lemma tick_error_le_iff {hz : Nat} (hpos : 0 < hz) :
  |10 - 1000 / (hz : ℚ)| ≤ 1 ↔ 91 ≤ hz ∧ hz ≤ 111 := by
  have hq : (0 : ℚ) < hz := by exact_mod_cast hpos
  have hlow : -1 ≤ 10 - 1000 / (hz : ℚ) ↔ 1000 ≤ 11 * hz := by
    rw [neg_le_sub_iff_le_add, div_le_iff₀ hq]
    exact_mod_cast Iff.rfl
  have hhigh : 10 - 1000 / (hz : ℚ) ≤ 1 ↔ 9 * hz ≤ 1000 := by
    rw [sub_le_comm, le_div_iff₀ hq]
    norm_num
    exact_mod_cast Iff.rfl
  rw [abs_le, hlow, hhigh]
  omega

structure InTime (c : Clock) : Prop where
  ticks : c.timer.ticks = c.passed.length
  fits : c.timer.ticks * 10 < 2 ^ 64
  error : |(c.passed.length * 10 : ℚ) - elapsedMs c.passed| ≤ c.passed.length

namespace InTime

variable {c : Clock}

lemma start : InTime startClock where
  ticks := rfl
  fits := by decide
  error := by simp [startClock, elapsedMs]

variable (h : InTime c)
include h

lemma interrupt (hguard : nearDefault c .interrupt) : InTime (c.react .interrupt) := by
  obtain ⟨hlow, hhigh, hfits⟩ := hguard
  have hticks : (c.react .interrupt).timer.ticks = c.timer.ticks + 1 := by
    exact Nat.mod_eq_of_lt (by omega)
  have hpassed : (c.react .interrupt).passed = c.passed ++ [c.armedHz] := rfl
  refine ⟨?_, by rwa [hticks], ?_⟩
  · rw [hticks, hpassed, h.ticks, length_append, length_singleton]
  have htick := (tick_error_le_iff (by omega)).mpr ⟨hlow, hhigh⟩
  have hsum : elapsedMs (c.passed ++ [c.armedHz]) =
      elapsedMs c.passed + 1000 / (c.armedHz : ℚ) := by
    simp [elapsedMs]
  rw [hpassed, hsum, length_append, length_singleton]
  push_cast
  calc |((c.passed.length : ℚ) + 1) * 10 - (elapsedMs c.passed + 1000 / (c.armedHz : ℚ))|
      = |((c.passed.length : ℚ) * 10 - elapsedMs c.passed) +
          (10 - 1000 / (c.armedHz : ℚ))| := by ring_nf
    _ ≤ |(c.passed.length : ℚ) * 10 - elapsedMs c.passed| + |10 - 1000 / (c.armedHz : ℚ)| :=
        abs_add_le _ _
    _ ≤ c.passed.length + 1 := add_le_add h.error htick

lemma step {e : ClockEvent} (hguard : nearDefault c e) : InTime (c.react e) := by
  cases e with
  | setHz hz => exact { h with }
  | interrupt => exact h.interrupt hguard

lemma accurate : MsAccurate c := by
  have hms : timerGetMs c.timer = c.passed.length * 10 := by
    rw [timerGetMs, h.ticks]
    have hfits := h.fits
    rw [h.ticks] at hfits
    exact Nat.mod_eq_of_lt hfits
  rw [MsAccurate, hms]
  push_cast
  exact h.error

end InTime

/-- In every run whose ticks are armed at 91 to 111 Hz, until the clock overflows, it is off by at
most a millisecond per tick. -/
theorem ms_accurate_near_default {c : Clock} (hc : (clocked.restrict nearDefault).Reachable c) :
  MsAccurate c := by
  apply InTime.accurate
  apply hc.invariant InTime
  · rintro c rfl
    exact .start
  intro c e h henabled
  exact h.step henabled.2

/-- No other rate can be allowed: a first tick at any rate outside is off by more. -/
lemma ms_accurate_first_tick_iff (hz : Nat) :
  MsAccurate ((startClock.react (.setHz hz)).react .interrupt) ↔
    91 ≤ (timerSetHz startClock.timer hz).hz ∧ (timerSetHz startClock.timer hz).hz ≤ 111 := by
  have hpos : 0 < (timerSetHz startClock.timer hz).hz := by
    simp only [timerSetHz]
    split_ifs <;> omega
  have harmed : ((startClock.react (.setHz hz)).react .interrupt).passed =
      [(timerSetHz startClock.timer hz).hz] := by
    show [timerArm (timerSetHz startClock.timer hz).hz] = _
    rw [timerArm, if_neg hpos.ne']
  have hms : timerGetMs ((startClock.react (.setHz hz)).react .interrupt).timer = 10 := rfl
  rw [← tick_error_le_iff hpos, MsAccurate, harmed, hms]
  simp [elapsedMs]

theorem ms_accurate_near_default_changed :
  MsAccurate ([.interrupt, .setHz 111, .interrupt].foldl Clock.react startClock) := by
  apply ms_accurate_near_default
  refine ⟨startClock, [.interrupt, .setHz 111, .interrupt], rfl, ?_⟩
  have hfirst : 91 ≤ 100 ∧ 100 ≤ 111 ∧ (0 + 1) * 10 < 2 ^ 64 := by decide
  have hsecond : 91 ≤ 111 ∧ 111 ≤ 111 ∧ (1 + 1) * 10 < 2 ^ 64 := by decide
  exact .cons ⟨trivial, hfirst⟩ (.cons ⟨trivial, trivial⟩ (.cons ⟨trivial, hsecond⟩ (.nil _)))

/-- At the highest rate of the policy, 200 Hz, the first tick takes five milliseconds and
the clock shows ten. -/
theorem fast_ticks_counted_double :
  ∃ c, clocked.Run startClock [.setHz 200, .interrupt] c ∧ timerGetMs c.timer = 10 ∧
    elapsedMs c.passed = 5 ∧ ¬ MsAccurate c := by
  refine ⟨_, Machine.run_foldl (fun _ _ => trivial) _ _, rfl, ?_, ?_⟩
  · show elapsedMs [200] = 5
    norm_num [elapsedMs]
  show ¬ MsAccurate ((startClock.react (.setHz 200)).react .interrupt)
  rw [ms_accurate_first_tick_iff]
  decide

end Aeos.Ai
