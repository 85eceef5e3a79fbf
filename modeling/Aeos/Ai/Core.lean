/-
# The policy network of the kernel

`fp.h` and `ai_core.c`: numbers with 16 fractional bits in 32-bit words, a 3-8-3
network that chooses one of three actions, and what an action does to the timer rate.
-/

import Aeos.Lib.Bytes
import Aeos.Lib.Perceptron

namespace Aeos.Ai

open Lib List

/-! ## `fp.h` -/

def fpOne : Int := 65536

def fpMul (a b : Int) : Int := int32 ((a * b) >>> (16 : Nat))

def fpFromRatio (num den : Nat) : Int :=
  if den = 0 then 0 else int32 ((num * 2 ^ 16 / den : Nat) : Int)

/-- `fp_softsign`: the absolute value is taken in an unsigned word and stored back in a signed
one. -/
def fpSoftsign (x : Int) : Int :=
  let absX : Nat := if x < 0 then u32 ((-(x + 1)).toNat + 1) else x.toNat
  let d := int32 (fpOne + int32 absX)
  int32 ((x * 2 ^ 16).tdiv d)

def fpClamp (x lo hi : Int) : Int :=
  if x < lo then lo else if x > hi then hi else x

def fpAbs (x : Int) : Int :=
  if x = -2 ^ 31 then 2 ^ 31 - 1 else if x < 0 then -x else x

/-! ## `ai_core.c` -/

def aiActSustain : Nat := 0

def aiActBoost : Nat := 1

def aiActRest : Nat := 2

def aiPeriodTicks : Nat := 50

def aiHistLen : Nat := 16

/-- `w1`, `b1`, `w2` and `b2` of `ai_core.c`. -/
def policyNet : Net 3 8 3 where
  w1 := ![
    ![0, 0, 2 * 2 ^ 16],
    ![0, 0, -(2 * 2 ^ 16)],
    ![2 * 2 ^ 16, 0, 0],
    ![0, 2 * 2 ^ 16, 0],
    ![2 ^ 15, 2 ^ 15, 0],
    ![-2 ^ 16, -2 ^ 16, -2 ^ 16],
    ![2 ^ 16, 0, 2 ^ 16],
    ![0, 0, 0]]
  b1 := ![0, 0, -2 ^ 16, -2 ^ 16, 0, 2 ^ 15, 0, 0]
  w2 := ![
    ![-2 ^ 14, -2 ^ 14, -2 ^ 14, -2 ^ 14, 2 ^ 15, 2 ^ 15, -2 ^ 14, 2 ^ 15],
    ![2 * 2 ^ 16, -(2 * 2 ^ 16), 0, 0, -2 ^ 15, -2 ^ 15, 2 * 2 ^ 16, 0],
    ![0, 2 * 2 ^ 16, 2 * 2 ^ 16, 2 * 2 ^ 16, 2 ^ 15, 0, -2 ^ 15, 0]]
  b2 := ![0, 0, 0]

def policyOps : NetOps where
  mul := fpMul
  add s p := int32 (s + p)
  squash := fpSoftsign
  clamp x := fpClamp x (-(4 * fpOne)) (4 * fpOne)

def aiPerceive (ticksSince heapUsed heapCap pagesFree pagesTotal : Nat) : Fin 3 → Int :=
  ![fpFromRatio heapUsed heapCap,
    fpFromRatio (u32 (pagesTotal + (2 ^ 32 - pagesFree))) pagesTotal,
    fpClamp (int32 (fpFromRatio ticksSince aiPeriodTicks - fpOne)) (-(2 * fpOne)) (2 * fpOne)]

def aiDecide (x : Fin 3 → Int) : Nat := (policyNet.decide policyOps x).val

def aiAct (action cmtLevel hz : Nat) : Nat :=
  let (step, lo, hi) :=
    if cmtLevel ≤ 1 then (25 / 2, 80, 120)
    else if cmtLevel ≥ 3 then (25 * 2, 50, 200)
    else (25, 20, 200)
  if action = aiActBoost then
    if u32 (hz + step) ≤ hi then u32 (hz + step) else hz
  else if action = aiActRest then
    if hz ≥ lo + step then hz - step else hz
  else hz

/-! ## The words of a computation -/

def unsignedAbs (x : Int) : Nat := if x < 0 then u32 ((-(x + 1)).toNat + 1) else x.toNat

def fpSoftsignDivisor (x : Int) : Int := int32 (fpOne + int32 (unsignedAbs x))

def fpSoftsignStores (x : Int) : List Int :=
  (if x < 0 then [x + 1, -(x + 1)] else []) ++
    [(unsignedAbs x : Int), fpOne + int32 (unsignedAbs x),
      (x * 2 ^ 16).tdiv (fpSoftsignDivisor x)]

def aiDecideStores (x : Fin 3 → Int) : List Int :=
  policyNet.stores policyOps 16 fpSoftsignStores x

lemma fpSoftsign_eq_tdiv (x : Int) :
  fpSoftsign x = int32 ((x * 2 ^ 16).tdiv (fpSoftsignDivisor x)) := rfl

lemma unsignedAbs_eq {x : Int} (hx : FitsInt32 x) : (unsignedAbs x : Int) = |x| := by
  obtain ⟨hlow, hhigh⟩ := hx
  rw [unsignedAbs]
  rcases abs_cases x with ⟨habs, hsign⟩ | ⟨habs, hsign⟩
  · rw [if_neg (not_lt.mpr hsign), habs, Int.toNat_of_nonneg hsign]
  rw [if_pos hsign, u32]
  omega

section
variable {x : Int} (hx : |x| < 2 ^ 31 - 2 ^ 16)
include hx

lemma fpSoftsignDivisor_eq : fpSoftsignDivisor x = 2 ^ 16 + |x| := by
  have hword : int32 |x| = |x| := int32_of_abs_lt (by rw [abs_abs]; omega)
  have habs := abs_nonneg x
  rw [fpSoftsignDivisor, unsignedAbs_eq (fitsInt32_of_abs_lt (by omega)), hword, fpOne]
  apply int32_of_abs_lt
  rw [abs_of_nonneg (by omega)]
  omega

lemma fpSoftsign_eq : fpSoftsign x = softsign Int.tdiv (2 ^ 16) x := by
  have hle : |softsign Int.tdiv (2 ^ 16) x| < 2 ^ 16 := abs_softsign_tdiv_lt (by decide) x
  rw [fpSoftsign_eq_tdiv, fpSoftsignDivisor_eq hx]
  exact int32_of_abs_lt (hle.trans (by decide))

end

lemma fpSoftsignStores_fit {x : Int} (hx : |x| < 2 ^ 30) :
    ∀ y ∈ fpSoftsignStores x, FitsInt32 y := by
  have hquotient : |softsign Int.tdiv (2 ^ 16) x| < 2 ^ 16 := abs_softsign_tdiv_lt (by decide) x
  have habs := abs_nonneg x
  have hword : int32 |x| = |x| := int32_of_abs_lt (by rw [abs_abs]; omega)
  rw [fpSoftsignStores, unsignedAbs_eq (fitsInt32_of_abs_lt (by omega)),
    fpSoftsignDivisor_eq (by omega), hword, fpOne]
  intro y hy
  rcases mem_append.mp hy with hneg | hall
  · split_ifs at hneg with hsign
    · rw [abs_of_neg hsign] at hx
      simp only [mem_cons, not_mem_nil, or_false] at hneg
      rcases hneg with rfl | rfl
      · exact ⟨by omega, by omega⟩
      · exact ⟨by omega, by omega⟩
    · exact absurd hneg not_mem_nil
  simp only [mem_cons, not_mem_nil, or_false] at hall
  rcases hall with rfl | rfl | rfl
  · exact ⟨by omega, by omega⟩
  · exact ⟨by omega, by omega⟩
  · exact fitsInt32_of_abs_lt (hquotient.trans (by decide))

lemma policyOps_inWords : InWords policyOps 16 Int.tdiv (-(4 * fpOne)) (4 * fpOne) where
  mul _ _ := rfl
  add _ _ := rfl
  squash _ hx := fpSoftsign_eq (hx.trans (by decide))
  clamp x := by
    show fpClamp x _ _ = _
    rw [fpClamp, fpOne]
    split_ifs <;> omega

/-! ## The whole domain of `fp_softsign` -/

/-- On words of size at most `n`, `fp_softsign` is strictly between minus one and one, keeps the
sign, is odd and monotone. -/
def SquashesUpTo (n : Int) : Prop :=
  ∀ x, FitsInt32 x → |x| ≤ n →
    (-65536 < fpSoftsign x ∧ fpSoftsign x < 65536) ∧
    (0 ≤ x → 0 ≤ fpSoftsign x) ∧ (x ≤ 0 → fpSoftsign x ≤ 0) ∧
    (x ≠ -2 ^ 31 → fpSoftsign (-x) = -fpSoftsign x) ∧
    ∀ y, FitsInt32 y → |y| ≤ n → x ≤ y → fpSoftsign x ≤ fpSoftsign y

theorem softsign_squashes_iff (n : Int) : SquashesUpTo n ↔ n < 2 ^ 31 - 2 ^ 16 := by
  constructor
  · intro h
    by_contra hlarge
    have hsign := (h (2 ^ 31 - 2 ^ 16) ⟨by decide, by decide⟩ (by
      rw [abs_of_nonneg (by decide)]
      exact not_lt.mp hlarge)).2.1 (by decide)
    exact absurd hsign (by decide)
  intro hn x _ hx
  have hexact : ∀ y, |y| ≤ n → fpSoftsign y = softsign Int.tdiv (2 ^ 16) y :=
    fun y hy => fpSoftsign_eq (hy.trans_lt hn)
  have hmono : ∀ {y z : Int}, y ≤ z → softsign Int.tdiv (2 ^ 16) y ≤ softsign Int.tdiv (2 ^ 16) z :=
    softsign_mono rounding_tdiv (by decide)
  rw [hexact x hx]
  refine ⟨abs_lt.mp (abs_softsign_tdiv_lt (by decide) x), fun hpos => ?_, fun hneg => ?_,
    fun _ => ?_, fun y _ hy hxy => ?_⟩
  · rw [← softsign_zero]
    exact hmono hpos
  · conv_rhs => rw [← softsign_zero (2 ^ 16)]
    exact hmono hneg
  · rw [hexact (-x) (by rwa [abs_neg]), softsign_neg]
  · rw [hexact y hy]
    exact hmono hxy

/-- The denominator of a large number is negative. -/
theorem softsign_of_large_negative : fpSoftsign (2 ^ 31 - 2 ^ 16) = -65534 := by
  decide

/-! ## The learning engine: `ai_learn.c` -/

def learnStates : Nat := 8

def learnActions : Nat := 3

def learnMemory : Nat := 32

def learnAlpha : Int := 1638

def learnGamma : Int := 52428

def learnEpsilon : Nat := 1638

def int16 (x : Int) : Int := x.bmod (2 ^ 16)

structure Experience where
  state : Nat
  action : Nat
  reward : Int
  nextState : Nat
  done : Bool
deriving DecidableEq

structure Learn where
  qTable : Nat → Nat → Int
  replay : Nat → Experience
  replayCount : Nat
  replayHead : Nat
  totalUpdates : Nat
  totalReward : Nat
  episodes : Nat
  enabled : Bool

def learnGetState (heapPct pagePct errorCount : Nat) : Nat :=
  let pressure := u32 (heapPct + pagePct) / 2
  let state := u32 (pressure * learnStates) / 100
  let state :=
    if errorCount > 10 then learnStates - 1
    else if errorCount > 5 then (if state < learnStates - 2 then state + 2 else state)
    else state
  if state ≥ learnStates then learnStates - 1 else state

def fpRand (seed : Nat) : Nat := u32 (seed * 1103515245 + 12345) / 2 ^ 16 % 2 ^ 15

def learnCalculateReward (heapPct pagePct errors inferences : Nat) : Int :=
  let r : Int := 0
  let r := if inferences > 0 then int16 (r + 10) else r
  let r := if heapPct < 50 then int16 (r + 5) else r
  let r := if pagePct < 50 then int16 (r + 5) else r
  let r := if errors > 0 then int16 (r - int16 (u32 (errors * 20))) else r
  let r := if heapPct > 80 then int16 (r - 15) else r
  let r := if pagePct > 80 then int16 (r - 15) else r
  if heapPct > 95 then int16 (r - 50) else r

namespace Learn

def init : Learn where
  qTable i j :=
    if j = 0 then 6553
    else if j = 1 then (if i < learnStates / 3 then 6553 else 0)
    else if i < learnStates / 2 then -3276 else 3276
  replay _ := ⟨0, 0, 0, 0, false⟩
  replayCount := 0
  replayHead := 0
  totalUpdates := 0
  totalReward := 0
  episodes := 0
  enabled := true

def bestAction (l : Learn) (state : Nat) : Nat :=
  if state ≥ learnStates then 0
  else (List.range' 1 (learnActions - 1)).foldl
    (fun best i => if l.qTable state i > l.qTable state best then i else best) 0

def chooseAction (l : Learn) (state : Nat) : Nat :=
  let r := fpRand (u32 (l.totalUpdates + l.replayCount))
  if r < learnEpsilon then r % learnActions else l.bestAction state

def store (l : Learn) (state action : Nat) (reward : Int) (nextState : Nat) : Learn :=
  { l with
    replay := Function.update l.replay l.replayHead
      ⟨state, action, reward, nextState, decide (nextState ≥ learnStates - 1)⟩
    replayHead := (l.replayHead + 1) % learnMemory
    replayCount := if l.replayCount < learnMemory then l.replayCount + 1 else l.replayCount
    totalReward := u32 (l.totalReward + (if reward > 0 then reward else -reward).toNat) }

def learnFrom (l : Learn) (e : Experience) : Learn :=
  let currentQ := l.qTable e.state e.action
  let maxNext := (List.range' 1 (learnActions - 1)).foldl
    (fun m j => if l.qTable e.nextState j > m then l.qTable e.nextState j else m)
    (l.qTable e.nextState 0)
  let target := int32 (e.reward + fpMul learnGamma maxNext)
  let delta := int32 (target - currentQ)
  let update := fpMul learnAlpha delta
  let q := int32 (currentQ + update)
  let q := if q > 65536 then 65536 else q
  let q := if q < -65536 then -65536 else q
  let row := Function.update (l.qTable e.state) e.action q
  { l with qTable := Function.update l.qTable e.state row }

def update (l : Learn) : Learn :=
  if !l.enabled ∨ l.replayCount < 4 then l
  else
    let samples := if l.replayCount < 8 then l.replayCount else 8
    let l := (List.range samples).foldl
      (fun l i => l.learnFrom (l.replay (u32 (l.totalUpdates + i) % l.replayCount))) l
    { l with totalUpdates := u32 (l.totalUpdates + samples), episodes := u32 (l.episodes + 1) }

end Learn

/-! ## The CMT engine: `cmt_core.c` and `cmt_api.c` -/

/-- What the memory managers tell an engine: `heap_get_used`, `heap_get_capacity`,
`pmm_get_free_pages` and `pmm_get_total_pages`. -/
structure Stats where
  heapUsed : Nat
  heapCap : Nat
  pagesFree : Nat
  pagesTotal : Nat
deriving DecidableEq

def Stats.pagesUsed (st : Stats) : Nat := u32 (st.pagesTotal + (2 ^ 32 - st.pagesFree))

def cmtPeriod : Nat := 50

def cmtHistLen : Nat := 32

structure CmtInput where
  p : Int
  m : Int
  b : Int
  s : Int
  a : Int
  x : Int
deriving DecidableEq

structure CmtExperience where
  dims : Fin 12 → Int
  energy : Int
  coherence : Int

structure CmtHistEntry where
  tick : Nat
  action : Nat
  level : Nat
  energy : Int
deriving DecidableEq

structure Cmt where
  level : Nat
  action : Nat
  inferences : Nat
  errors : Nat
  uptime : Nat
  disabled : Bool
  experience : CmtExperience
  lastInput : CmtInput
  history : Nat → CmtHistEntry
  histCount : Nat
  ticksSinceInfer : Nat
  ticksTotal : Nat

def cmtNet : Net 6 12 3 where
  w1 := ![
    ![2 * 2 ^ 16, 2 ^ 15, 0, 0, 0, 0],
    ![-(2 * 2 ^ 16), -2 ^ 15, 0, 0, 0, 0],
    ![2 ^ 15, 2 * 2 ^ 16, 0, 0, 0, 0],
    ![0, 0, 2 * 2 ^ 16, 0, 0, 0],
    ![0, 0, 0, 2 * 2 ^ 16, 0, 0],
    ![0, 0, 0, 0, 2 * 2 ^ 16, 0],
    ![0, 0, 0, 0, 0, 2 * 2 ^ 16],
    ![2 ^ 15, 2 ^ 15, 0, 0, 0, 0],
    ![0, 0, 2 ^ 15, 2 ^ 15, 0, 0],
    ![0, 0, 0, 0, 2 ^ 15, 2 ^ 15],
    ![-2 ^ 16, -2 ^ 16, -2 ^ 16, 0, 0, 0],
    ![0, 0, 0, 0, 0, 0]]
  b1 := ![0, 0, -2 ^ 16, 0, 0, 0, 0, 2 ^ 15, 0, 0, 2 ^ 15, 0]
  w2 := ![
    ![-2 ^ 14, -2 ^ 14, -2 ^ 14, -2 ^ 14, -2 ^ 14, -2 ^ 14,
      -2 ^ 14, 2 ^ 15, 2 ^ 15, 2 ^ 15, 2 ^ 15, 2 ^ 15],
    ![2 * 2 ^ 16, -(2 * 2 ^ 16), 0, 2 * 2 ^ 16, 0, 0,
      0, -2 ^ 15, -2 ^ 15, 0, -2 ^ 16, 0],
    ![0, 2 * 2 ^ 16, 2 * 2 ^ 16, -(2 * 2 ^ 16), -(2 * 2 ^ 16), -(2 * 2 ^ 16),
      -(2 * 2 ^ 16), 0, 0, -2 ^ 15, 2 * 2 ^ 16, 0]]
  b2 := ![0, 0, 0]

def cmtOps : NetOps where
  mul := fpMul
  add s p := int32 (s + p)
  squash := fpSoftsign
  clamp x := x

namespace Cmt

def init : Cmt where
  level := 0
  action := 0
  inferences := 0
  errors := 0
  uptime := 0
  disabled := false
  experience := ⟨fun _ => 0, 0, 0⟩
  lastInput := ⟨0, 0, 0, 0, 0, 0⟩
  history _ := ⟨0, 0, 0, 0⟩
  histCount := 0
  ticksSinceInfer := 0
  ticksTotal := 0

def perceive (c : Cmt) (st : Stats) (aiInferences aiErrors aiLastAction : Nat) : CmtInput :=
  let ph := fpFromRatio st.heapUsed st.heapCap
  let pp := fpFromRatio st.pagesUsed st.pagesTotal
  let aiTot := u32 (aiInferences + aiErrors)
  { p := (int32 (ph + pp)).tdiv 2
    m := fpClamp (int32 (fpOne - fpFromRatio st.pagesFree st.pagesTotal)) 0 fpOne
    b := fpClamp (int32 (fpFromRatio c.ticksSinceInfer cmtPeriod - fpOne))
      (-(2 * fpOne)) (2 * fpOne)
    s := if aiTot > 0 then fpFromRatio aiInferences aiTot else fpOne
    a := int32 (aiLastAction * 2 ^ 16)
    x := fpClamp (fpFromRatio (c.uptime % 1000) 1000) 0 fpOne }

/-- `cmt_transform`: the action and the experience. -/
def transform (i : CmtInput) : Nat × CmtExperience :=
  let inp := ![i.p, i.m, i.b, i.s, i.a, i.x]
  let hidden := cmtNet.hidden cmtOps inp
  let te := (List.finRange 12).foldl (fun te k => int32 (te + fpAbs (hidden k))) 0
  ((cmtNet.decide cmtOps inp).val,
    { dims := hidden
      energy := te.tdiv 12
      coherence :=
        if te > 0 then fpClamp (te.tdiv (int32 (fpAbs (hidden 0) + 1))) 0 fpOne else 0 })

def coherenceDivisor (dims : Fin 12 → Int) : Int := fpAbs (dims 0) + 1

def deriveLevel (e : CmtExperience) : Nat :=
  if e.energy ≤ 0 then 0
  else if e.energy < 2 ^ 15 then 1
  else if e.energy < 2 ^ 16 ∨ e.coherence < 2 ^ 15 then 2
  else 3

def record (c : Cmt) (tick action level : Nat) (energy : Int) : Cmt :=
  if c.histCount < cmtHistLen then
    { c with
      history := Function.update c.history c.histCount ⟨tick, action, level, energy⟩
      histCount := c.histCount + 1 }
  else c

def onTick (c : Cmt) (st : Stats) (aiInferences aiErrors aiLastAction : Nat) : Cmt :=
  if c.disabled then c
  else
    let c := { c with
      uptime := u32 (c.uptime + 1)
      ticksTotal := u32 (c.ticksTotal + 1)
      ticksSinceInfer := u32 (c.ticksSinceInfer + 1) }
    if c.ticksSinceInfer < cmtPeriod then c
    else
      let c := { c with ticksSinceInfer := 0, inferences := u32 (c.inferences + 1) }
      let i := c.perceive st aiInferences aiErrors aiLastAction
      let (action, e) := transform i
      let level := deriveLevel e
      record { c with lastInput := i, experience := e, level := level, action := action }
        c.ticksTotal action level e.energy

end Cmt

/-! ## The AI debugger: `ai_debug.c` -/

def debugMaxIssues : Nat := 16

def debugMaxFixes : Nat := 8

inductive IssueType
  | none
  | memLeak
  | highErrors
  | slowPerf
  | hungTask
  | stackOverflow
  | divZero
  | nullPtr
deriving DecidableEq

inductive FixType
  | none
  | resetDevice
  | clearMemory
  | killTask
  | resetTimer
  | disableAi
  | reboot
  | adjustHz
deriving DecidableEq

structure Issue where
  type : IssueType
  severity : Nat
  count : Nat
deriving DecidableEq

structure Fix where
  issueType : IssueType
  fixType : FixType
  success : Bool
deriving DecidableEq

structure Debug where
  issues : Nat → Issue
  fixes : List Fix
  issueCount : Nat
  scanCount : Nat
  totalIssues : Nat
  totalFixes : Nat
  enabled : Bool
  autoFix : Bool

structure Readings where
  heapUsed : Nat
  heapCap : Nat
  errors : Nat
  inferences : Nat
  hz : Nat
  cmtLevel : Nat

def percent (used cap : Nat) : Nat := if cap > 0 then u32 (used * 100) / cap else 0

namespace Debug

def init : Debug where
  issues _ := ⟨.none, 0, 0⟩
  fixes := []
  issueCount := 0
  scanCount := 0
  totalIssues := 0
  totalFixes := 0
  enabled := true
  autoFix := true

def findIssue (d : Debug) (type : IssueType) : Option Nat :=
  (List.range d.issueCount).find? fun i => (d.issues i).type = type

def addIssue (d : Debug) (type : IssueType) (severity : Nat) : Debug :=
  match d.findIssue type with
  | some i =>
    let seen := { d.issues i with count := u32 ((d.issues i).count + 1) }
    { d with issues := Function.update d.issues i seen }
  | none =>
    if d.issueCount < debugMaxIssues then
      { d with
        issues := Function.update d.issues d.issueCount ⟨type, severity, 1⟩
        issueCount := d.issueCount + 1
        totalIssues := u32 (d.totalIssues + 1) }
    else d

def addFix (d : Debug) (issueType : IssueType) (fixType : FixType) (success : Bool) : Debug :=
  let kept := if d.fixes.length ≥ debugMaxFixes then d.fixes.drop 1 else d.fixes
  { d with fixes := kept ++ [⟨issueType, fixType, success⟩], totalFixes := u32 (d.totalFixes + 1) }

def scan (d : Debug) (r : Readings) : Debug :=
  if !d.enabled then d
  else
    let d := { d with scanCount := u32 (d.scanCount + 1) }
    let heapPct := percent r.heapUsed r.heapCap
    let d :=
      if heapPct > 90 then d.addIssue .memLeak 2
      else if heapPct > 75 then d.addIssue .memLeak 1
      else d
    let d :=
      if r.inferences > 10 then
        let errorRate := u32 (r.errors * 100) / r.inferences
        if errorRate > 20 then d.addIssue .highErrors 2
        else if errorRate > 10 then d.addIssue .highErrors 1
        else d
      else d
    let d := if r.hz < 50 then d.addIssue .slowPerf 1 else d
    if r.cmtLevel = 0 ∧ r.inferences > 20 then d.addIssue .hungTask 1 else d

def findIssueToFix (d : Debug) : Nat :=
  ((List.range d.issueCount).foldl
    (fun (best : Nat × Nat) i =>
      if (d.issues i).severity > best.1 then ((d.issues i).severity, i) else best)
    (0, 0)).2

def determineFix : IssueType → FixType
  | .memLeak => .clearMemory
  | .highErrors => .resetTimer
  | .slowPerf => .adjustHz
  | .hungTask => .resetTimer
  | .stackOverflow => .killTask
  | .divZero => .disableAi
  | .nullPtr => .reboot
  | .none => .none

def fixSucceeds : FixType → Bool
  | .clearMemory | .resetTimer | .adjustHz | .killTask | .disableAi => true
  | .reboot | .none | .resetDevice => false

def autofix (d : Debug) : FixType × Debug :=
  if !d.enabled ∨ !d.autoFix then (.none, d)
  else if d.issueCount = 0 then (.none, d)
  else
    let i := d.findIssueToFix
    let type := (d.issues i).type
    if type = .none then (.none, d)
    else
      let fix := determineFix type
      if fix = .none then (.none, d)
      else
        let success := fixSucceeds fix
        let d := d.addFix type fix success
        let cleared := { d.issues i with type := .none, severity := 0 }
        (fix, if success then { d with issues := Function.update d.issues i cleared } else d)

end Debug
end Aeos.Ai
