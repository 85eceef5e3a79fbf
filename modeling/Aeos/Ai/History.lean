/-
# Histories

`ai_api.c` keeps the last sixteen decisions in a ring that it overwrites, `cmt_core.c`
the first 32 inferences in an array that it fills once.
-/

import Aeos.Ai.Activity
import Aeos.Lib.Ring

namespace Aeos.Ai

open Lib List Option

/-! ## The AI engine -/

namespace Engine

def aiHistoryCount (e : Engine) : Nat :=
  if e.ai.histCount < aiHistLen then e.ai.histCount else aiHistLen

def historyAt (e : Engine) (idx : Int) : Option HistEntry :=
  if idx < 0 ∨ idx ≥ e.aiHistoryCount then none
  else
    let start := if e.ai.histCount < aiHistLen then 0 else e.ai.histCount - aiHistLen
    some (e.ai.hist (u32 (start + idx.toNat) % aiHistLen))

def aiHistoryTick (e : Engine) (idx : Int) : Nat := (e.historyAt idx).elim 0 HistEntry.tick

def aiHistoryAction (e : Engine) (idx : Int) : Int :=
  (e.historyAt idx).elim (-1) fun entry => entry.action

/-- What a call of `ai_on_tick` decides and when, if it infers. -/
def decision (e : Engine) (st : Stats) : Option HistEntry :=
  if e.Counts ∧ (e.ticked st).ai.ticksSinceInfer ≥ aiPeriodTicks then
    some ⟨(e.ticked st).ai.ticksTotal, (e.ticked st).actionAt st⟩
  else none

def ring (e : Engine) : (Nat → HistEntry) × Nat := (e.ai.hist, e.ai.histCount)

lemma infer_ring (e : Engine) (st : Stats) : (e.infer st).ring = (e.acted st).ring := by
  rw [infer_eq]
  split_ifs
  · obtain ⟨disabled, hai⟩ := debugPass_ai ((e.acted st).learnPass st (e.actionAt st)) st
    rw [ring, hai]
    rfl
  · rfl

lemma aiOnTick_ring (e : Engine) (st : Stats) : (e.aiOnTick st).ring = match e.decision st with
    | some d => (Function.update e.ai.hist (e.ai.histCount % aiHistLen) d,
        u32 (e.ai.histCount + 1))
    | none => e.ring := by
  by_cases hcounts : e.Counts
  · rw [aiOnTick_of_healthy hcounts.1 hcounts.2, decision]
    by_cases hperiod : u32 (e.ai.ticksSinceInfer + 1) ≥ aiPeriodTicks
    · rw [if_pos hperiod, if_pos ⟨hcounts, hperiod⟩]
      exact infer_ring (e.ticked st) st
    rw [if_neg hperiod, if_neg fun hboth => hperiod hboth.2]
    rfl
  rw [decision, if_neg fun hboth => hcounts hboth.1]
  cases hhealthy : e.aiIsHealthy with
  | true =>
    have hin : e.ai.inTick = true := by
      rw [← Bool.not_eq_false]
      exact fun hout => hcounts ⟨hhealthy, hout⟩
    rw [aiOnTick, aiHealthy_of_healthy hhealthy]
    simp [hin]
  | false =>
    have hbad : e.ai.magic ≠ aiMagic ∨ e.ai.disabled = true := by
      by_contra hgood
      push Not at hgood
      exact of_decide_eq_false hhealthy ⟨hgood.1, by simp [hgood.2]⟩
    rw [aiOnTick, aiHealthy, if_pos hbad]
    rfl

end Engine

/-- The engine with the decisions it has made since its initialisation. -/
structure Recorded where
  engine : Engine
  log : List HistEntry

def Recorded.react (r : Recorded) : LearnEvent → Recorded
  | .tick st errors =>
    let e := r.engine.withErrors errors
    ⟨e.aiOnTick st, r.log ++ (e.decision st).toList⟩
  | .aiReset => ⟨r.engine.aiReset, []⟩
  | ev => ⟨r.engine.learnReact ev, r.log⟩

def recording : Machine Recorded LearnEvent where
  init r := ∃ before : Engine, r = ⟨before.aiInit, []⟩
  enabled _ _ := True
  step := Recorded.react

structure Recorded.Kept (r : Recorded) : Prop where
  count : r.engine.ai.histCount = u32 r.log.length
  latest : KeepsLatest aiHistLen r.engine.ai.hist r.log

variable {r : Recorded}

lemma Recorded.Kept.step (h : r.Kept) (ev : LearnEvent) : (r.react ev).Kept := by
  cases ev with
  | tick st errors =>
    have hring := (r.engine.withErrors errors).aiOnTick_ring st
    cases hdecision : (r.engine.withErrors errors).decision st with
    | none =>
      rw [hdecision] at hring
      obtain ⟨hhist, hcount⟩ := Prod.mk.inj (show (_, _) = (_, _) from hring)
      rw [react, hdecision, toList_none, append_nil]
      refine ⟨hcount.trans h.count, ?_⟩
      dsimp only
      rw [hhist]
      exact h.latest
    | some d =>
      rw [hdecision] at hring
      obtain ⟨hhist, hcount⟩ := Prod.mk.inj (show (_, _) = (_, _) from hring)
      have hcell : r.engine.ai.histCount % aiHistLen = r.log.length % aiHistLen := by
        rw [h.count, u32, aiHistLen]
        omega
      rw [react, hdecision, toList_some]
      refine ⟨hcount.trans ?_, ?_⟩
      · show u32 (r.engine.ai.histCount + 1) = u32 (r.log ++ [d]).length
        rw [h.count, length_append, u32, u32, u32, Nat.mod_add_mod, length_singleton]
      dsimp only
      rw [hhist, show (r.engine.withErrors errors).ai.histCount % aiHistLen = _ from hcell]
      exact h.latest.push d
  | aiReset => exact ⟨rfl, .nil⟩
  | _ => exact { h with }

lemma Recorded.kept_of_reachable (hr : recording.Reachable r) : r.Kept := by
  refine hr.invariant Recorded.Kept ?_ fun r ev h _ => h.step ev
  rintro r ⟨before, rfl⟩
  exact ⟨rfl, .nil⟩

/-- After fewer than `2 ^ 32` inferences the queries give the last sixteen decisions, the
oldest of them first, and nothing else. -/
theorem ai_history_is_latest {r : Recorded} (hr : recording.Reachable r)
  (hn : r.log.length < 2 ^ 32) :
  r.engine.aiHistoryCount = min r.log.length 16 ∧
    (∀ (i : Nat) (d : HistEntry), r.log[r.log.length - min r.log.length 16 + i]? = some d →
      r.engine.aiHistoryTick i = d.tick ∧ r.engine.aiHistoryAction i = d.action) ∧
    ∀ idx : Int, idx < 0 ∨ min r.log.length 16 ≤ idx →
      r.engine.aiHistoryTick idx = 0 ∧ r.engine.aiHistoryAction idx = -1 := by
  obtain ⟨hcount, hlatest⟩ := Recorded.kept_of_reachable hr
  rw [u32, Nat.mod_eq_of_lt hn] at hcount
  have htotal : r.engine.aiHistoryCount = min r.log.length 16 := by
    rw [Engine.aiHistoryCount, hcount, aiHistLen]
    split_ifs <;> omega
  refine ⟨htotal, fun i d hd => ?_, fun idx hout => ?_⟩
  · have hlt := (List.getElem?_eq_some_iff.mp hd).1
    have hplace : u32 ((if r.log.length < aiHistLen then 0 else r.log.length - aiHistLen) + i) =
        r.log.length - min r.log.length 16 + i := by
      rw [u32, aiHistLen]
      split_ifs <;> omega
    have hat : r.engine.historyAt i = some d := by
      rw [Engine.historyAt, if_neg (by rw [htotal]; omega)]
      dsimp only
      rw [hcount, Int.toNat_natCast, hplace, hlatest _ d hd (by rw [aiHistLen]; omega)]
    rw [Engine.aiHistoryTick, Engine.aiHistoryAction, hat]
    exact ⟨rfl, rfl⟩
  have hat : r.engine.historyAt idx = none := by
    rw [Engine.historyAt, if_pos]
    rw [htotal]
    exact_mod_cast hout
  rw [Engine.aiHistoryTick, Engine.aiHistoryAction, hat]
  exact ⟨rfl, rfl⟩

theorem ai_history_is_latest_first :
    let r := (List.replicate 850 (LearnEvent.tick halfUsed 0)).foldl recording.step
      ⟨Engine.boot.aiInit, []⟩
    r.log.length = 17 ∧ r.engine.aiHistoryCount = 16 ∧ r.engine.aiHistoryTick 0 = 100 ∧
      r.engine.aiHistoryTick 15 = 850 ∧ r.engine.aiHistoryAction 16 = -1 := by
  intro r
  have hstart : recording.Reachable ⟨Engine.boot.aiInit, []⟩ :=
    Machine.reachable_of_init ⟨Engine.boot, rfl⟩
  have hr : recording.Reachable r := hstart.run (Machine.run_foldl (fun _ _ => trivial) _ _)
  have hlog : r.log.length = 17 ∧ r.log[1]? = some ⟨100, 2⟩ ∧ r.log[16]? = some ⟨850, 2⟩ := by
    decide +kernel
  obtain ⟨hlength, hfirst, hlast⟩ := hlog
  obtain ⟨hcount, hinside, houtside⟩ := ai_history_is_latest hr (by rw [hlength]; decide)
  rw [hlength] at hcount hinside houtside
  exact ⟨hlength, hcount, (hinside 0 _ hfirst).1, (hinside 15 _ hlast).1,
    (houtside 16 (.inr (by decide))).2⟩

/-! ## The CMT engine -/

namespace Cmt

def cmtHistoryCount (c : Cmt) : Nat := c.histCount

def historyAt (c : Cmt) (idx : Int) : Option CmtHistEntry :=
  if idx < 0 ∨ idx ≥ c.histCount then none else some (c.history idx.toNat)

def cmtHistoryTick (c : Cmt) (idx : Int) : Nat := (c.historyAt idx).elim 0 CmtHistEntry.tick

def cmtHistoryAction (c : Cmt) (idx : Int) : Int :=
  (c.historyAt idx).elim (-1) fun entry => entry.action

def cmtHistoryLevel (c : Cmt) (idx : Int) : Int :=
  (c.historyAt idx).elim (-1) fun entry => entry.level

def cmtHistoryEnergy (c : Cmt) (idx : Int) : Int := (c.historyAt idx).elim 0 CmtHistEntry.energy

def forceInference (c : Cmt) : Cmt := { c with ticksSinceInfer := cmtPeriod }

def Infers (c : Cmt) : Prop := c.disabled = false ∧ u32 (c.ticksSinceInfer + 1) ≥ cmtPeriod

instance (c : Cmt) : Decidable c.Infers := inferInstanceAs (Decidable (_ ∧ _))

def lastInference (c : Cmt) : CmtHistEntry :=
  ⟨c.ticksTotal, c.action, c.level, c.experience.energy⟩

def shown (c : Cmt) : List CmtHistEntry := (List.range c.histCount).map c.history

lemma historyAt_eq (c : Cmt) (i : Nat) : c.historyAt i = c.shown[i]? := by
  rw [historyAt, shown, List.getElem?_map]
  split_ifs with hout
  · rw [List.getElem?_eq_none (by rw [length_range]; omega)]
    rfl
  · rw [List.getElem?_range (by omega)]
    rfl

lemma shown_record (c : Cmt) (tick action level : Nat) (energy : Int) :
  (c.record tick action level energy).shown =
    if c.histCount < cmtHistLen then c.shown ++ [⟨tick, action, level, energy⟩] else c.shown := by
  rw [record]
  split_ifs
  · exact map_range_update id c.history c.histCount _
  · rfl

lemma shown_onTick (c : Cmt) (st : Stats) (inferences errors action : Nat) :
  (c.onTick st inferences errors action).shown = if c.Infers ∧ c.histCount < cmtHistLen then
      c.shown ++ [(c.onTick st inferences errors action).lastInference] else c.shown := by
  by_cases hinfers : c.Infers
  · have honTick : ∃ c' : Cmt, c.onTick st inferences errors action =
          c'.record c'.ticksTotal c'.action c'.level c'.experience.energy ∧
        c'.shown = c.shown ∧ c'.histCount = c.histCount := by
      rw [onTick, if_neg (by rw [hinfers.1]; exact Bool.false_ne_true)]
      dsimp only
      rw [if_neg (not_lt.mpr hinfers.2)]
      generalize transform _ = made
      exact ⟨_, rfl, rfl, rfl⟩
    obtain ⟨c', heq, hshown, hcount⟩ := honTick
    rw [heq, shown_record, hshown, hcount]
    have hlast : (c'.record c'.ticksTotal c'.action c'.level c'.experience.energy).lastInference =
        c'.lastInference := by
      rw [record]
      split_ifs <;> rfl
    rw [hlast]
    exact if_congr (and_iff_right hinfers).symm rfl rfl
  rw [if_neg fun hboth => hinfers hboth.1, onTick]
  split_ifs with hdisabled
  · rfl
  dsimp only
  split_ifs with hwait
  · rfl
  · exact absurd ⟨eq_false_of_ne_true hdisabled, not_lt.mp hwait⟩ hinfers

end Cmt

inductive CmtCall
  | onTick (st : Stats) (aiInferences aiErrors aiLastAction : Nat)
  | forceInference
  | disable
  | enable
  | init

/-- The engine with the inferences it has made since its initialisation. -/
structure CmtRecorded where
  cmt : Cmt
  log : List CmtHistEntry

namespace CmtRecorded

def react (r : CmtRecorded) : CmtCall → CmtRecorded
  | .onTick st inferences errors action =>
    let c := r.cmt.onTick st inferences errors action
    ⟨c, if r.cmt.Infers then r.log ++ [c.lastInference] else r.log⟩
  | .forceInference => { r with cmt := r.cmt.forceInference }
  | .disable => { r with cmt := { r.cmt with disabled := true } }
  | .enable => { r with cmt := { r.cmt with disabled := false } }
  | .init => ⟨.init, []⟩

/-- The queries give the last inferences that the array has room for, in their order. -/
def ShowsLatest (r : CmtRecorded) : Prop :=
  r.cmt.cmtHistoryCount = min r.log.length cmtHistLen ∧
    ∀ (i : Nat) (d : CmtHistEntry), (r.log.drop (r.log.length - cmtHistLen))[i]? = some d →
      r.cmt.cmtHistoryTick i = d.tick ∧ r.cmt.cmtHistoryAction i = d.action ∧
        r.cmt.cmtHistoryLevel i = d.level ∧ r.cmt.cmtHistoryEnergy i = d.energy

end CmtRecorded

def cmtRecording : Machine CmtRecorded CmtCall where
  init r := r = ⟨.init, []⟩
  enabled _ _ := True
  step := CmtRecorded.react

namespace CmtRecorded

variable {r : CmtRecorded}

lemma length_shown (c : Cmt) : c.shown.length = c.histCount := by
  rw [Cmt.shown, length_map, length_range]

lemma shown_step (h : r.cmt.shown = r.log.take cmtHistLen) (ev : CmtCall) :
  (r.react ev).cmt.shown = (r.react ev).log.take cmtHistLen := by
  cases ev with
  | onTick st inferences errors action =>
    have hcount : r.cmt.histCount = min cmtHistLen r.log.length := by
      rw [← length_shown, h, length_take]
    rw [react]
    dsimp only
    rw [Cmt.shown_onTick, h]
    by_cases hinfers : r.cmt.Infers
    · rw [if_pos hinfers]
      split_ifs with hroom
      · rw [take_of_length_le (by omega), take_of_length_le]
        rw [length_append, length_singleton]
        omega
      · rw [take_append_of_le_length]
        have := mt (And.intro hinfers) hroom
        omega
    · rw [if_neg hinfers, if_neg fun hboth => hinfers hboth.1]
  | forceInference => exact h
  | disable => exact h
  | enable => exact h
  | init => rfl

/-- Run lemma: the array has the first inferences. -/
lemma shown_eq_take (hr : cmtRecording.Reachable r) : r.cmt.shown = r.log.take cmtHistLen := by
  refine hr.invariant (fun r => r.cmt.shown = r.log.take cmtHistLen) ?_ fun r ev h _ =>
    shown_step h ev
  rintro r rfl
  rfl

lemma showsLatest_iff : r.ShowsLatest ↔ r.cmt.shown = r.log.drop (r.log.length - cmtHistLen) := by
  constructor
  · rintro ⟨hcount, hqueries⟩
    have hlength : r.cmt.shown.length = (r.log.drop (r.log.length - cmtHistLen)).length := by
      rw [length_shown, length_drop]
      exact hcount.trans (by omega)
    refine ext_getElem hlength fun i hi hi' => ?_
    have hat := r.cmt.historyAt_eq i
    rw [List.getElem?_eq_getElem hi] at hat
    obtain ⟨htick, haction, hlevel, henergy⟩ := hqueries i _ (List.getElem?_eq_getElem hi')
    rw [Cmt.cmtHistoryTick, hat] at htick
    rw [Cmt.cmtHistoryAction, hat] at haction
    rw [Cmt.cmtHistoryLevel, hat] at hlevel
    rw [Cmt.cmtHistoryEnergy, hat] at henergy
    generalize r.cmt.shown[i] = a at *
    generalize (r.log.drop (r.log.length - cmtHistLen))[i] = b at *
    cases a
    cases b
    simp_all
  intro hshown
  constructor
  · rw [Cmt.cmtHistoryCount, ← length_shown, hshown, length_drop]
    omega
  intro i d hd
  have hat := r.cmt.historyAt_eq i
  rw [hshown, hd] at hat
  rw [Cmt.cmtHistoryTick, Cmt.cmtHistoryAction, Cmt.cmtHistoryLevel, Cmt.cmtHistoryEnergy, hat]
  exact ⟨rfl, rfl, rfl, rfl⟩

end CmtRecorded

/-- The array shows the latest inferences exactly if there are at most 32, or the last 32
look like the first. -/
theorem cmt_history_latest_iff {r : CmtRecorded} (hr : cmtRecording.Reachable r) :
  r.ShowsLatest ↔ r.log.length ≤ cmtHistLen ∨
    r.log.take cmtHistLen = r.log.drop (r.log.length - cmtHistLen) := by
  rw [CmtRecorded.showsLatest_iff, CmtRecorded.shown_eq_take hr]
  refine ⟨.inr, fun h => h.elim (fun hle => ?_) id⟩
  rw [take_of_length_le hle, Nat.sub_eq_zero_of_le hle, drop_zero]

def idleStats : Stats := ⟨0, 0, 0, 0⟩

/-- The engine after `n` inferences that were asked for. -/
def CmtRecorded.forced (n : Nat) : CmtRecorded :=
  (List.replicate n [CmtCall.forceInference, .onTick idleStats 0 0 0]).flatten.foldl
    CmtRecorded.react ⟨.init, []⟩

theorem cmt_history_latest_two : (CmtRecorded.forced 2).ShowsLatest := by
  have hr : cmtRecording.Reachable (CmtRecorded.forced 2) :=
    (Machine.reachable_of_init rfl).run (Machine.run_foldl (fun _ _ => trivial) _ _)
  exact (cmt_history_latest_iff hr).mpr (.inl (by decide +kernel))

/-- With one inference too many the first one is still there and the last one is not. -/
theorem thirty_third_inference_not_shown : (CmtRecorded.forced 33).log.length = 33 ∧
    (CmtRecorded.forced 33).cmt.cmtHistoryCount = 32 ∧
    (CmtRecorded.forced 33).cmt.cmtHistoryTick 0 = 1 ∧
    (CmtRecorded.forced 33).cmt.cmtHistoryTick 31 = 32 ∧
    ¬ (CmtRecorded.forced 33).ShowsLatest := by
  have hlength : (CmtRecorded.forced 33).log.length = 33 := by decide +kernel
  have hfirst : (CmtRecorded.forced 33).cmt.cmtHistoryTick 0 = 1 := by decide +kernel
  have hsecond : ((CmtRecorded.forced 33).log[1]?).map CmtHistEntry.tick = some 2 := by
    decide +kernel
  refine ⟨hlength, by decide +kernel, hfirst, by decide +kernel, fun h => ?_⟩
  obtain ⟨d, hd, htick⟩ := map_eq_some_iff.mp hsecond
  have hshown := (h.2 0 d (by rw [hlength, List.getElem?_drop]; exact hd)).1
  exact absurd (hfirst.symm.trans (hshown.trans htick)) (by decide)

end Aeos.Ai
