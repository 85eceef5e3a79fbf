/-
# One interface, two kernels

`KernelPort` promises that agent code runs unchanged on the mock and on the native
kernel. Here both get the same calls.
-/

import Aeos.Sdk.Model

namespace Aeos.Sdk

open Lib List

inductive Call
  | timerInfo
  | vitals
  | setTimerHz (hz : Int)
  | allocatePages (count : Nat)
  | forceInference
  | enable
  | disable
deriving DecidableEq

def kept {α : Type} (s : α) : Except String α → α
  | .ok s' => s'
  | .error _ => s

def Mock.react (net : Net 3 8 3) (s : Mock) : Call → Mock
  | .timerInfo => (s.timerInfo net).2
  | .vitals => (s.vitals net).2
  | .setTimerHz hz => kept s (s.setTimerHz hz)
  | .allocatePages count => kept s (s.allocatePages count)
  | .forceInference => (s.aiForceInference net).2
  | .enable => s.aiEnable
  | .disable => s.aiDisable

def Native.react (s : Native) : Call → Native
  | .timerInfo => s.timerInfo.2
  | .vitals => s.vitals.2
  | .setTimerHz hz => kept s (s.setTimerHz hz)
  | .allocatePages count => s.simAllocatePages count
  | .forceInference => s.aiForceInference
  | .enable => s.aiEnable
  | .disable => s.aiDisable

/-! ## What an inference does -/

variable {s : Native} {net : Net 3 8 3}

lemma Native.timerTicks_of_lt (h : s.readsSinceInference + 1 < aiPeriodTicks) : s.timerTicks =
    { s with ticks := (s.ticks + s.hz) % 2 ^ 64,
             readsSinceInference := s.readsSinceInference + 1 } := by
  have hword : u32 (s.readsSinceInference + 1) = s.readsSinceInference + 1 := by
    rw [u32, Nat.mod_eq_of_lt]
    rw [aiPeriodTicks] at h
    omega
  rw [timerTicks]
  simp only [hword]
  rw [if_neg (not_le.mpr h)]

lemma Native.timerTicks_of_eq (h : s.readsSinceInference + 1 = aiPeriodTicks) : s.timerTicks =
    aiStep { s with ticks := (s.ticks + s.hz) % 2 ^ 64, readsSinceInference := 0 } := by
  have hword : u32 (s.readsSinceInference + 1) = aiPeriodTicks := by
    rw [h]
    rfl
  rw [timerTicks]
  simp only [hword]
  rw [if_pos (le_refl _)]

lemma Native.aiStep_aiHistCount (s : Native) : s.aiStep.aiHistCount = s.aiHistCount := by
  rw [aiStep, took]

lemma Native.aiForceInference_disabled (h : s.aiDisabledFlag = true) : s.aiForceInference = s :=
  if_pos h

lemma Native.aiForceInference_lastAction (h : s.aiDisabledFlag = false) :
  s.aiForceInference.lastAction =
    (aiDecide ![fpFromRatio s.usedPages s.totalPages, fpFromRatio s.usedPages s.totalPages,
      2 * fpOne]).name := by
  rw [aiForceInference, if_neg (by rw [h]; decide)]
  simp only [took]

lemma Mock.timerInfo_disabled {s : Mock} (h : s.aiDisabled = true) :
  (s.timerInfo net).2 = { s with ticks := s.tickSource, tickSource := s.tickSource + 1 } := by
  simp [timerInfo, tick, h]

lemma Mock.timerInfo_of_lt {s : Mock} (h : s.aiDisabled = false)
  (hlt : s.ticksSinceInfer + 1 < aiPeriodTicks) : (s.timerInfo net).2 =
    { s with ticks := s.tickSource, tickSource := s.tickSource + 1,
             ticksSinceInfer := s.ticksSinceInfer + 1 } := by
  simp [timerInfo, tick, h, not_le.mpr hlt]

lemma Mock.timerInfo_of_ge {s : Mock} (h : s.aiDisabled = false)
  (hge : aiPeriodTicks ≤ s.ticksSinceInfer + 1) : (s.timerInfo net).2 =
    (runInference net { s with ticks := s.tickSource, tickSource := s.tickSource + 1,
                               ticksSinceInfer := 0 }).2 := by
  simp [timerInfo, tick, h, hge]

lemma Mock.runInference_inferences (net : Net 3 8 3) (s : Mock) :
  (runInference net s).2.inferences = s.inferences + 1 := by
  rw [runInference]

lemma Mock.runInference_lastAction (net : Net 3 8 3) (s : Mock) :
  (runInference net s).2.lastAction =
    (Py.decide net (Py.perceive s.heapUsed s.heapCap s.free s.total s.ticksSinceInfer)).2.name := by
  rw [runInference]

lemma Mock.runInference_history_ne_nil (net : Net 3 8 3) (s : Mock) :
  (runInference net s).2.aiHistory ≠ [] := by
  intro hnil
  have hlen := congrArg List.length hnil
  simp only [runInference] at hlen
  split_ifs at hlen with hlong
  · rw [length_drop, length_nil, aiHistLen] at hlen
    omega
  rw [length_append, length_singleton, length_nil] at hlen
  omega

/-! ## The same calls to both -/

def fresh (p : Mock × Native) : Prop :=
  Mock.new 32768 4608 100 = .ok p.1 ∧
    ∃ before : Native, before.totalPages = 32768 ∧ p.2 = before.simReset

def shared (p : Mock × Native) : Call → Prop
  | .setTimerHz hz => 10 ≤ hz ∧ hz ≤ 500
  | .allocatePages count => count ≤ p.1.free ∧ count ≤ p.2.freePages
  | .vitals => False
  | _ => True

def backends : Machine (Mock × Native) Call where
  init := fresh
  enabled := shared
  step p c := (p.1.react defaultNet c, p.2.react c)

def SameReport (p : Mock × Native) : Prop :=
  p.1.report.lastAction = p.2.report.lastAction ∧
    p.1.report.policyHz = p.2.report.policyHz ∧
    p.1.report.inferences = p.2.report.inferences ∧
    p.1.report.actions = p.2.report.actions

/-- No inference is forced, and no timer read ends a period of the native kernel. -/
def noInference (p : Mock × Native) : Call → Prop
  | .timerInfo => p.2.readsSinceInference + 1 < aiPeriodTicks
  | .forceInference => False
  | _ => True

structure Untouched (p : Mock × Native) : Prop where
  lastAction : p.1.lastAction = p.2.lastAction
  hz : p.1.hz = p.2.hz
  mockInferences : p.1.inferences = 0
  nativeInferences : p.2.inferences = 0
  mockHistory : p.1.aiHistory = []
  nativeHistory : p.2.aiHistCount = 0
  mockTotal : p.1.total = 32768
  nativeTotal : p.2.totalPages = 32768
  free : p.1.free = p.2.freePages
  freeLe : p.2.freePages ≤ 32768
  heapUsed : p.1.heapUsed = 0
  reads : p.1.ticksSinceInfer ≤ p.2.readsSinceInference
  readsLt : p.2.readsSinceInference < aiPeriodTicks

lemma Native.actions_of_empty (h : s.aiHistCount = 0) : s.report.actions = [] := by
  simp [report, AiReport.actions, aiGetHistory, historyCount, h, aiHistLen]

lemma Native.actions_ne_nil (h : s.aiHistCount ≠ 0) : s.report.actions ≠ [] := by
  have hcount : s.historyCount ≠ 0 := by
    rw [historyCount]
    split_ifs
    · exact h
    · decide
  intro hnil
  have hlen := congrArg List.length hnil
  simp only [report, AiReport.actions, aiGetHistory, length_map, length_range,
    length_nil] at hlen
  exact hcount hlen

namespace Untouched

variable {p : Mock × Native}

lemma sameReport (h : Untouched p) : SameReport p := by
  refine ⟨h.lastAction, h.hz, h.mockInferences.trans h.nativeInferences.symm, ?_⟩
  rw [Native.actions_of_empty h.nativeHistory]
  show p.1.aiHistory.map _ = []
  rw [h.mockHistory, map_nil]

lemma of_fresh (h : fresh p) (hhist : p.2.aiHistCount = 0) : Untouched p := by
  obtain ⟨hmock, before, htotal, hnative⟩ := h
  have hmock := Except.ok.inj (hmock.symm.trans Mock.new_default)
  have hfree : p.2.freePages = 28160 := by
    rw [hnative]
    show u32 (before.totalPages + (2 ^ 32 - 4608)) = 28160
    rw [htotal]
    rfl
  have hreads : p.2.readsSinceInference = 0 := by rw [hnative]; rfl
  constructor
  case lastAction => rw [hmock, hnative]; rfl
  case hz => rw [hmock, hnative]; rfl
  case mockInferences => rw [hmock]; rfl
  case nativeInferences => rw [hnative]; rfl
  case mockHistory => rw [hmock]; rfl
  case nativeHistory => exact hhist
  case mockTotal => rw [hmock]; rfl
  case nativeTotal => rw [hnative, Native.simReset, htotal]
  case free => rw [hmock, hfree]; rfl
  case freeLe => rw [hfree]; decide
  case heapUsed => rw [hmock]; rfl
  case reads => rw [hmock]; exact Nat.zero_le _
  case readsLt => rw [hreads]; decide

variable (h : Untouched p)
include h

/-- Step lemma: calls that do not infer change neither kernel's report for itself. -/
lemma step {c : Call} (hshared : shared p c) (hguard : noInference p c) :
  Untouched (backends.step p c) := by
  cases c with
  | timerInfo =>
    have hlt := lt_of_le_of_lt (Nat.succ_le_succ h.reads) hguard
    show Untouched ((p.1.timerInfo defaultNet).2, p.2.timerTicks)
    rw [Native.timerTicks_of_lt hguard]
    cases hdis : p.1.aiDisabled with
    | true =>
      rw [Mock.timerInfo_disabled hdis]
      exact { h with reads := Nat.le_succ_of_le h.reads, readsLt := hguard }
    | false =>
      rw [Mock.timerInfo_of_lt hdis hlt]
      exact { h with reads := Nat.succ_le_succ h.reads, readsLt := hguard }
  | vitals => exact absurd hshared id
  | setTimerHz hz =>
    have hrange : 10 ≤ hz ∧ hz ≤ 500 := hshared
    have hmock : p.1.setTimerHz hz = .ok { p.1 with hz := hz.toNat } :=
      if_neg (not_not.mpr hrange)
    have hnative : p.2.setTimerHz hz = .ok { p.2 with hz := hz.toNat } := by
      rw [Native.setTimerHz, if_neg (not_not.mpr hrange), Native.setTimerHzClamped,
        if_neg (by omega : ¬ hz.toNat < 10), if_neg (by omega : ¬ hz.toNat > 500)]
    show Untouched (kept p.1 (p.1.setTimerHz hz), kept p.2 (p.2.setTimerHz hz))
    rw [hmock, hnative]
    exact { h with hz := rfl }
  | allocatePages count =>
    obtain ⟨hmock, hnative⟩ := hshared
    show Untouched (kept p.1 (p.1.allocatePages count), p.2.simAllocatePages count)
    rw [Mock.allocatePages, if_neg (by omega), Native.simAllocatePages, if_pos hnative]
    have hfree := h.free
    have hle := h.freeLe
    exact { h with
      free := show p.1.free - count = ((p.2.freePages - count : Nat) : Int) by omega
      freeLe := show p.2.freePages - count ≤ 32768 by omega }
  | forceInference => exact absurd hguard id
  | _ => exact { h with }

lemma mock_forced_inputs : ∃ r : Int, 0 ≤ r ∧ r ≤ 65536 ∧
    Py.perceive p.1.heapUsed p.1.heapCap p.1.free p.1.total (aiPeriodTicks : Nat) = ![0, r, 0] := by
  have hfree := h.free
  have hle := h.freeLe
  have hheap : Py.fpFromRatio 0 p.1.heapCap = 0 := by
    simp [Py.fpFromRatio]
  refine ⟨2 * (32768 - p.1.free), by omega, by omega, ?_⟩
  have hpages : Py.fpFromRatio (32768 - p.1.free) 32768 = 2 * (32768 - p.1.free) := by
    rw [Py.fpFromRatio, if_neg (by decide), Int.fdiv_eq_ediv_of_nonneg _ (by decide)]
    omega
  rw [Py.perceive, h.heapUsed, h.mockTotal, hheap, hpages]
  rfl

lemma native_used : 0 ≤ Native.fpFromRatio p.2.usedPages p.2.totalPages ∧
    Native.fpFromRatio p.2.usedPages p.2.totalPages ≤ 65536 := by
  have hle := h.freeLe
  have hused : p.2.usedPages = 32768 - p.2.freePages := by
    rw [Native.usedPages, h.nativeTotal, u32]
    omega
  have hratio : ((32768 - p.2.freePages) * 2 ^ 16 / 32768 : Nat) =
      2 * (32768 - p.2.freePages) := by
    omega
  rw [hused, h.nativeTotal, Native.fpFromRatio, if_neg (by decide), hratio, int32_of_abs_lt]
  · omega
  rw [abs_of_nonneg (by omega)]
  omega

lemma not_same {c : Call} (hguard : ¬ noInference p c) : ¬ SameReport (backends.step p c) := by
  rintro ⟨hlast, -, hcount, hactions⟩
  cases c with
  | timerInfo =>
    have hreads := Nat.le_antisymm h.readsLt (not_lt.mp hguard)
    change (p.1.timerInfo defaultNet).2.inferences = p.2.timerTicks.inferences at hcount
    change (p.1.timerInfo defaultNet).2.report.actions = p.2.timerTicks.report.actions at hactions
    rw [Native.timerTicks_of_eq hreads] at hcount hactions
    -- The native kernel counts an inference and records none.
    have hone : (Native.aiStep { p.2 with ticks := (p.2.ticks + p.2.hz) % 2 ^ 64,
                                          readsSinceInference := 0 }).inferences = 1 := by
      show u32 (p.2.inferences + 1) = 1
      rw [h.nativeInferences]
      rfl
    rw [hone] at hcount
    rw [Native.actions_of_empty (by rw [Native.aiStep_aiHistCount, h.nativeHistory])] at hactions
    cases hdis : p.1.aiDisabled with
    | true =>
      rw [Mock.timerInfo_disabled hdis] at hcount
      exact absurd (h.mockInferences.symm.trans hcount) (by decide)
    | false =>
      rcases lt_or_ge (p.1.ticksSinceInfer + 1) aiPeriodTicks with hlt | hge
      · rw [Mock.timerInfo_of_lt hdis hlt] at hcount
        exact absurd (h.mockInferences.symm.trans hcount) (by decide)
      rw [Mock.timerInfo_of_ge hdis hge] at hactions
      exact Mock.runInference_history_ne_nil _ _ (map_eq_nil_iff.mp hactions)
  | forceInference =>
    change (p.1.aiForceInference defaultNet).2.inferences =
      p.2.aiForceInference.inferences at hcount
    change (p.1.aiForceInference defaultNet).2.lastAction = p.2.aiForceInference.lastAction at hlast
    cases hdis : p.2.aiDisabledFlag with
    | true =>
      rw [Native.aiForceInference_disabled hdis, h.nativeInferences, Mock.aiForceInference,
        Mock.runInference_inferences] at hcount
      exact absurd hcount (Nat.succ_ne_zero _)
    | false =>
      obtain ⟨r, hr0, hr1, hinputs⟩ := h.mock_forced_inputs
      obtain ⟨hu0, hu1⟩ := h.native_used
      have hboost : p.2.aiForceInference.lastAction = Action.boost.name := by
        rw [Native.aiForceInference_lastAction hdis, Native.aiDecide_active hu0 hu1]
      rw [hboost, Mock.aiForceInference, Mock.runInference_lastAction] at hlast
      have hmock := Action.name_injective hlast
      rw [hinputs] at hmock
      exact Py.decide_quiet hr0 hr1 hmock
  | _ => exact absurd trivial hguard

end Untouched

/-- The reports of a fresh mock and a freshly reset native kernel agree after each of any calls
exactly if the native history was empty, no inference is forced and no timer read ends a period.
-/
theorem backends_agree_iff {p q : Mock × Native} {cs : List Call} (hfresh : backends.init p)
  (hrun : backends.Run p cs q) :
  backends.Throughout SameReport p cs ↔
    p.2.aiHistCount = 0 ∧ (backends.restrict noInference).Run p cs q := by
  by_cases hhist : p.2.aiHistCount = 0
  · rw [and_iff_right hhist]
    refine hrun.throughout_iff (fun p (h : Untouched p) => h.sameReport) ?_ ?_
      (Untouched.of_fresh hfresh hhist)
    · exact fun _ _ h hshared hguard => h.step hshared hguard
    · exact fun _ _ h _ hguard => h.not_same hguard
  refine iff_of_false (fun hsame => ?_) fun h => hhist h.1
  have hactions := hsame.start.2.2.2
  have hmock := Except.ok.inj (hfresh.1.symm.trans Mock.new_default)
  rw [hmock] at hactions
  exact Native.actions_ne_nil hhist hactions.symm

def firstPair : Mock × Native := (.default, Native.loaded.simReset)

lemma fresh_firstPair : fresh firstPair := ⟨Mock.new_default, .loaded, rfl, rfl⟩

instance (p : Mock × Native) (c : Call) : Decidable (shared p c) := by
  cases c <;> unfold shared <;> infer_instance

instance (p : Mock × Native) (c : Call) : Decidable (noInference p c) := by
  cases c <;> unfold noInference <;> infer_instance

instance (p : Mock × Native) (c : Call) : Decidable (backends.enabled p c) :=
  inferInstanceAs (Decidable (shared p c))

instance (p : Mock × Native) (c : Call) : Decidable ((backends.restrict noInference).enabled p c) :=
  inferInstanceAs (Decidable (shared p c ∧ noInference p c))

def quietCalls : List Call :=
  [.timerInfo, .setTimerHz 250, .allocatePages 28160, .disable, .timerInfo, .enable]

theorem backends_agree_quiet : backends.Throughout SameReport firstPair quietCalls :=
  (backends_agree_iff fresh_firstPair
    (backends.run_of_admitsAll firstPair quietCalls (by decide +kernel))).mpr
    ⟨rfl, (backends.restrict noInference).run_of_admitsAll firstPair quietCalls
      (by decide +kernel)⟩

theorem forced_inference_differs :
  ∃ q, fresh firstPair ∧ backends.Run firstPair [.forceInference] q ∧
    q.1.report.lastAction = "SUSTAIN" ∧ q.2.report.lastAction = "BOOST" ∧ ¬ SameReport q := by
  refine ⟨_, fresh_firstPair, .cons trivial (.nil _), ?_, ?_, ?_⟩
  · decide +kernel
  · decide +kernel
  · exact (Untouched.of_fresh fresh_firstPair rfl).not_same id

/-! ## A disabled AI -/

/-- The calls that read the timer or infer. -/
def Call.observes : Call → Bool
  | .timerInfo | .vitals | .forceInference => true
  | _ => false

/-- How often the native kernel reads the timer in a call. -/
def Call.timerReads : Call → Nat
  | .timerInfo => 1
  | .vitals => 2
  | _ => 0

/-- All calls to a mock, and what else can change the weights of `ai_core`. -/
inductive MockCall
  | port (c : Call)
  | setHeapUsed (used : Int)
  | fireAiInference (action : String)
  | setWeights (net : Net 3 8 3)

/-- A mock and the weights it decides with, under any calls. -/
def mockKernel : Machine (Net 3 8 3 × Mock) MockCall where
  init s := ∃ total reserved hz, Mock.new total reserved hz = .ok s.2
  enabled _ _ := True
  step s e :=
    match e with
    | .port c => (s.1, s.2.react s.1 c)
    | .setHeapUsed used => (s.1, s.2.setHeapUsed used)
    | .fireAiInference action => (s.1, s.2.fireAiInference action)
    | .setWeights net => (net, s.2)

inductive NativeCall
  | port (c : Call)
  | simReset

def nativeKernel : Machine Native NativeCall where
  init s := s = .loaded
  enabled _ _ := True
  step s e :=
    match e with
    | .port c => s.react c
    | .simReset => s.simReset

namespace Mock

variable {net : Net 3 8 3} {s : Mock}

lemma vitals_snd : (s.vitals net).2 = (s.timerInfo net).2 := by
  rw [vitals]

variable (h : s.aiDisabled = true)
include h

lemma react_aiDisabled {c : Call} (hc : c ≠ .enable) : (s.react net c).aiDisabled = true := by
  cases c with
  | timerInfo =>
    rw [react, timerInfo_disabled h]
    exact h
  | vitals =>
    rw [react, vitals_snd, timerInfo_disabled h]
    exact h
  | setTimerHz hz =>
    rw [react, setTimerHz]
    split_ifs <;> exact h
  | allocatePages count =>
    rw [react, allocatePages]
    split_ifs <;> exact h
  | forceInference =>
    exact h
  | enable => exact absurd rfl hc
  | disable => rfl

lemma report_react_iff {c : Call} (hc : c.observes = true) :
  (s.react net c).report = s.report ↔ c ≠ .forceInference := by
  cases c with
  | timerInfo =>
    rw [react, timerInfo_disabled h]
    exact iff_of_true rfl (by decide)
  | vitals =>
    rw [react, vitals_snd, timerInfo_disabled h]
    exact iff_of_true rfl (by decide)
  | forceInference =>
    refine iff_of_false (fun hsame => ?_) (fun hne => hne rfl)
    have hcount := congrArg AiReport.inferences hsame
    exact absurd hcount (Nat.succ_ne_self _)
  | _ => exact absurd hc Bool.false_ne_true

end Mock

lemma mockKernel_disabled {s t : Net 3 8 3 × Mock} {es : List MockCall}
  (hrun : mockKernel.Run (mockKernel.step s (.port .disable)) es t)
  (hes : MockCall.port .enable ∉ es) : t.2.aiDisabled = true := by
  apply hrun.invariant_of_mem (fun s => s.2.aiDisabled = true) _ rfl
  intro s e he h _
  cases e with
  | port c =>
    apply Mock.react_aiDisabled h
    rintro rfl
    exact hes he
  | _ => exact h

namespace Native

variable {s : Native}

lemma timerTicks_aiDisabledFlag : s.timerTicks.aiDisabledFlag = s.aiDisabledFlag := by
  rw [timerTicks]
  split_ifs
  · rw [aiStep, took]
  · rfl

lemma vitals_snd : s.vitals.2 = s.timerTicks.timerTicks := by
  simp only [vitals, timerInfo]

lemma react_aiDisabledFlag (h : s.aiDisabledFlag = true) {c : Call} (hc : c ≠ .enable) :
  (s.react c).aiDisabledFlag = true := by
  cases c with
  | timerInfo =>
    rw [react, timerInfo, timerTicks_aiDisabledFlag]
    exact h
  | vitals =>
    rw [react, vitals_snd, timerTicks_aiDisabledFlag, timerTicks_aiDisabledFlag]
    exact h
  | setTimerHz hz =>
    rw [react, setTimerHz]
    split_ifs <;> exact h
  | allocatePages count =>
    rw [react, simAllocatePages]
    split_ifs <;> exact h
  | forceInference =>
    rw [react, aiForceInference_disabled h]
    exact h
  | enable => exact absurd rfl hc
  | disable => rfl

lemma timerTicks_cases (h : s.readsSinceInference < aiPeriodTicks) :
  (s.readsSinceInference + 1 < aiPeriodTicks ∧ s.timerTicks.report = s.report ∧
      s.timerTicks.readsSinceInference = s.readsSinceInference + 1) ∨
    (s.readsSinceInference + 1 = aiPeriodTicks ∧
      s.timerTicks.report.inferences = u32 (s.report.inferences + 1) ∧
      s.timerTicks.readsSinceInference = 0) := by
  rcases Nat.lt_or_eq_of_le (Nat.succ_le_of_lt h) with hlt | heq
  · rw [timerTicks_of_lt hlt]
    exact .inl ⟨hlt, rfl, rfl⟩
  rw [timerTicks_of_eq heq, report, aiStep, took]
  exact .inr ⟨heq, rfl, rfl⟩

lemma u32_succ_ne (n : Nat) : u32 (n + 1) ≠ n := by
  rw [u32]
  omega

lemma report_react_iff (h : s.aiDisabledFlag = true)
  (hreads : s.readsSinceInference < aiPeriodTicks) {c : Call} (hc : c.observes = true) :
  (s.react c).report = s.report ↔ s.readsSinceInference + c.timerReads < aiPeriodTicks := by
  cases c with
  | timerInfo =>
    rw [react, timerInfo, Call.timerReads]
    rcases timerTicks_cases hreads with ⟨hlt, hsame, -⟩ | ⟨heq, hcount, -⟩
    · exact iff_of_true hsame hlt
    refine iff_of_false (fun hsame => ?_) (by omega)
    rw [hsame] at hcount
    exact u32_succ_ne _ hcount.symm
  | vitals =>
    rw [react, vitals_snd, Call.timerReads]
    rcases timerTicks_cases hreads with ⟨hlt, hfirst, hnext⟩ | ⟨heq, hcount, hnext⟩
    · rcases timerTicks_cases (s := s.timerTicks) (hnext ▸ hlt) with
        ⟨hlt2, hsecond, -⟩ | ⟨heq2, hcount, -⟩
      · exact iff_of_true (hsecond.trans hfirst) (by omega)
      refine iff_of_false (fun hsame => ?_) (by omega)
      rw [hsame, hfirst] at hcount
      exact u32_succ_ne _ hcount.symm
    have hone : s.timerTicks.timerTicks.report = s.timerTicks.report := by
      rcases timerTicks_cases (s := s.timerTicks) (by rw [hnext]; decide) with
        ⟨-, hsecond, -⟩ | ⟨heq2, -, -⟩
      · exact hsecond
      rw [hnext] at heq2
      exact absurd heq2 (by decide)
    refine iff_of_false (fun hsame => ?_) (by omega)
    rw [← hone, hsame] at hcount
    exact u32_succ_ne _ hcount.symm
  | forceInference =>
    rw [react, aiForceInference_disabled h]
    exact iff_of_true rfl hreads
  | _ => exact absurd hc Bool.false_ne_true

lemma react_reads (h : s.readsSinceInference < aiPeriodTicks) (c : Call) :
  (s.react c).readsSinceInference < aiPeriodTicks := by
  have hread : ∀ {s : Native}, s.readsSinceInference < aiPeriodTicks →
      s.timerTicks.readsSinceInference < aiPeriodTicks := by
    intro s h
    rcases timerTicks_cases h with ⟨hlt, -, hnext⟩ | ⟨-, -, hnext⟩
    · rwa [hnext]
    rw [hnext]
    decide
  cases c with
  | timerInfo => exact hread h
  | vitals =>
    exact hread (hread h)
  | setTimerHz hz =>
    rw [react, setTimerHz]
    split_ifs <;> exact h
  | allocatePages count =>
    rw [react, simAllocatePages]
    split_ifs <;> exact h
  | forceInference =>
    rw [react, aiForceInference]
    split_ifs
    · exact h
    simp only [took]
    exact h
  | _ => exact h

end Native

lemma nativeKernel_reads (hs : nativeKernel.Reachable s) :
  s.readsSinceInference < aiPeriodTicks := by
  apply hs.invariant fun s => s.readsSinceInference < aiPeriodTicks
  · rintro s rfl
    decide
  intro s e h _
  cases e with
  | port c => exact Native.react_reads h c
  | simReset =>
    show 0 < aiPeriodTicks
    decide

lemma nativeKernel_disabled {t : Native} {es : List NativeCall}
  (hrun : nativeKernel.Run (nativeKernel.step s (.port .disable)) es t)
  (hes : NativeCall.port .enable ∉ es) : t.aiDisabledFlag = true := by
  apply hrun.invariant_of_mem (fun s => s.aiDisabledFlag = true) _ rfl
  intro s e he h _
  cases e with
  | port c =>
    apply Native.react_aiDisabledFlag h
    rintro rfl
    exact hes he
  | simReset =>
    show s.simReset.aiDisabledFlag = true
    rw [Native.simReset]
    exact h

/-- From a disable to the next enable, a call leaves the AI's report as it is: on the mock exactly
if it is no forced inference, on the native kernel exactly if no timer read of it ends a period.
-/
theorem disabled_ai_silent_iff (c : Call) (hc : c.observes = true) :
  (∀ {s t : Net 3 8 3 × Mock} {es : List MockCall}, mockKernel.Reachable s →
    mockKernel.Run (mockKernel.step s (.port .disable)) es t → MockCall.port .enable ∉ es →
      ((mockKernel.step t (.port c)).2.report = t.2.report ↔ c ≠ .forceInference)) ∧
  (∀ {s t : Native} {es : List NativeCall}, nativeKernel.Reachable s →
    nativeKernel.Run (nativeKernel.step s (.port .disable)) es t →
    NativeCall.port .enable ∉ es →
      ((nativeKernel.step t (.port c)).report = t.report ↔
        t.readsSinceInference + c.timerReads < aiPeriodTicks)) := by
  constructor
  · intro s t es _ hrun hes
    exact Mock.report_react_iff (mockKernel_disabled hrun hes) hc
  intro s t es hs hrun hes
  have ht := (hs.step trivial).run hrun
  exact Native.report_react_iff (nativeKernel_disabled hrun hes) (nativeKernel_reads ht) hc

theorem disabled_ai_silent_vitals :
  (mockKernel.step (mockKernel.step (defaultNet, .default) (.port .disable))
      (.port .vitals)).2.report = Mock.default.report ∧
    (nativeKernel.step (nativeKernel.step .loaded (.port .disable))
      (.port .vitals)).report = Native.loaded.report := by
  constructor
  · have hstart : mockKernel.Reachable (defaultNet, .default) :=
      Machine.reachable_of_init ⟨_, _, _, Mock.new_default⟩
    exact ((disabled_ai_silent_iff .vitals rfl).1 hstart (.nil _) not_mem_nil).mpr (by decide)
  have hstart : nativeKernel.Reachable .loaded := Machine.reachable_of_init rfl
  exact ((disabled_ai_silent_iff .vitals rfl).2 hstart (.nil _) not_mem_nil).mpr (by decide)

def readDisabled (n : Nat) : Native :=
  (List.replicate n (NativeCall.port .timerInfo)).foldl nativeKernel.step
    (nativeKernel.step .loaded (.port .disable))

/-- A forced inference on the mock, and the fiftieth timer read of the native kernel. -/
theorem disabled_ai_infers : (Mock.default.aiDisable.report.inferences = 0 ∧
    (Mock.default.aiDisable.react defaultNet .forceInference).report.inferences = 1) ∧
  ((readDisabled 49).report.inferences = 0 ∧
    ((readDisabled 49).react .timerInfo).report.inferences = 1) := by
  decide +kernel

end Aeos.Sdk
