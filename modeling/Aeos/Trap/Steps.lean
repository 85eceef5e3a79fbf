/-
# The steps of the trap model

What each step does to the invariant: a timer interrupt at EL1 or at EL0, an `SVC`,
work of the C code, an instruction of the assembly, a call into the scheduler.
-/

import Aeos.Trap.Context
import Mathlib.Tactic.IntervalCases

namespace Aeos.Trap

open Lib List Option
open Function (update update_of_ne update_self)

/-! ## Timer interrupts -/

variable {b : Block} {o : Int}

lemma not_below_of_block {a : Cell} (ha : a.1 ≠ b) : ¬ below b o a :=
  fun h => ha h.1

lemma tickKernel_eq {s : State} (hsp : s.core.sp = .ptr b o)
  (clobbered : Fin 31 → Word) (junk : Int → Word) :
  ∃ c', Alike (below b o) s.core c' ∧ tickKernel s clobbered junk =
    { s with core := c', sched := Sched.schedOnTick s.sched } := by
  obtain ⟨c, hc⟩ : ∃ c : Core, c = { s.core with
    elr := .code s.loc
    spsr := .pstate ⟨false, s.irqMasked, 0⟩ } := ⟨_, rfl⟩
  have hsp' : c.sp = .ptr b o := by rw [hc]; exact hsp
  have halike := handleIrqEntry_alike hsp' clobbered junk
  have hstart : Alike (below b o) s.core c := by
    rw [hc]
    exact ⟨rfl, rfl, rfl, fun _ _ => rfl⟩
  refine ⟨handleIrqEntry c clobbered junk, hstart.trans halike, ?_⟩
  rw [hc]
  rfl

lemma tickUser_eq {s : State} (hsp : s.core.sp = .ptr b o) (u : Ctx)
  (clobbered : Fin 31 → Word) (junk : Int → Word) :
  ∃ c', Alike (below b o) (u.enter s.core) c' ∧ c'.elr = u.pc ∧
    c'.spsr = .pstate (userPstate u.flags) ∧ tickUser s u clobbered junk =
      { s with core := c', sched := Sched.schedOnTick s.sched, loc := .user,
               irqMasked := false } := by
  have hsp' : (u.enter s.core).sp = .ptr b o := hsp
  obtain ⟨halike, helr, hspsr⟩ := handleIrqLower_alike hsp' clobbered junk
  refine ⟨_, halike, helr, hspsr, ?_⟩
  rw [tickUser, eret]
  simp only [hspsr]
  rfl

section
variable {s : State} {c : Nat}
variable {s' : State} {slot p n k depth : Nat} {o on : Int} {lr ln : Loc} {c₀ : Core}
  {t : Sched.State} {e : Sched.Event}

section
variable (h : SharedSp s)
include h

lemma SharedSp.congr
    (htrapped : ∀ t call, s'.trapped t = some call → ∃ call', s.trapped t = some call' ∧
    call.ctx = call'.ctx)
    (hloc : s'.loc.inKernel = true → s.loc.inKernel = true ∧ s'.core.spEl0 = s.core.spEl0) :
  SharedSp s' := by
  obtain ⟨v, hcalls, hkernel⟩ := h
  refine ⟨v, fun t call ht => ?_, fun hin => ?_⟩
  · obtain ⟨call', ht', hctx⟩ := htrapped t call ht
    rw [hctx]
    exact hcalls t call' ht'
  obtain ⟨hin', hsp⟩ := hloc hin
  exact hsp.trans (hkernel hin')

lemma SharedSp.of_trapped_eq (htrapped : s'.trapped = s.trapped)
    (hloc : s'.loc.inKernel = true → s.loc.inKernel = true ∧ s'.core.spEl0 = s.core.spEl0) :
  SharedSp s' :=
  h.congr (fun _ call ht => ⟨call, htrapped ▸ ht, rfl⟩) hloc

lemma SharedSp.of_cleared (htrapped : s'.trapped = update s.trapped slot none)
    (hloc : s'.loc.inKernel = true → s.loc.inKernel = true ∧ s'.core.spEl0 = s.core.spEl0) :
  SharedSp s' := by
  refine h.congr (fun t call ht => ?_) hloc
  rw [htrapped] at ht
  by_cases hslot : t = slot
  · rw [hslot, update_self] at ht
    cases ht
  rw [update_of_ne hslot] at ht
  exact ⟨call, ht, rfl⟩

end

lemma SwitchCall.congr (h : SwitchCall s p n o on lr ln c₀) (hview : s'.sched.view = s.sched.view)
  (htrapped : s'.trapped = s.trapped) : SwitchCall s' p n o on lr ln c₀ := by
  have hready : ∀ t, s'.Ready t → s.Ready t := fun t ht => ⟨ht.1, hview ▸ ht.2⟩
  exact { h with
    leaving := fun hp => htrapped ▸ h.leaving (hready p hp)
    entering := htrapped ▸ h.entering
    rest := fun t ht hr => htrapped ▸ h.rest t ht (hready t hr) }

namespace SwitchCall

variable {p : Nat} {o on : Int} {lr ln : Loc} {c₀ : Core} (h : SwitchCall s p c o on lr ln c₀)
include h

lemma switchMem_of_ne {a : Cell} (ha : a.1 ≠ .area p) : switchMem c₀ a = c₀.mem a := by
  have hne : ∀ k : Nat, (Word.ptr (.area p) 0).at k ≠ a := by
    rintro k rfl
    exact ha rfl
  rw [switchMem, h.prevArea, update_of_ne (hne 96).symm]
  exact spill_outside fun q _ => hne q.2

lemma switchMem_sp : switchMem c₀ (.area p, 96) = .ptr (.stack p) o := by
  rw [switchMem, h.prevArea, h.sp]
  exact update_self _ _ _

lemma switchMem_link : switchMem c₀ (.area p, 88) = .code lr := by
  have hslot := spill_slot (x := c₀.x) (m := c₀.mem) (Word.at_injective (.ptr (.area p) 0))
    calleeFrame_slots (p := (30, 88)) (by decide)
  rw [switchMem, h.prevArea, update_of_ne (by simp [Word.at]), ← h.link]
  exact hslot

lemma area_ne : Block.area c ≠ .area p :=
  fun heq => h.ne (Block.area.inj heq).symm

lemma loaded : (execs cpuSwitchTo c₀).sp = .ptr (.stack c) on ∧
    (execs cpuSwitchTo c₀).x 30 = .code ln ∧ (execs cpuSwitchTo c₀).mem = switchMem c₀ := by
  rw [cpuSwitchTo_eq, h.nextArea]
  refine ⟨?_, ?_, rfl⟩
  · exact (h.switchMem_of_ne h.area_ne).trans h.nextSp
  have hslot : fill (Word.ptr (.area c) 0).at (switchMem c₀) calleeFrame
      (update c₀.x 2 c₀.sp) 30 = switchMem c₀ (.area c, 88) :=
    fill_slot calleeFrame_regs (p := (30, 88)) (by decide)
  exact (h.switchMem_of_ne h.area_ne).trans h.nextLink

lemma sp_take {k : Nat} (hk : k ≤ 16) : ∃ b off, (execs (cpuSwitchTo.take k) c₀).sp = .ptr b off ∧
    ∀ a, below b off a → deadIn p o c on a := by
  by_cases hlast : k = 16
  · subst hlast
    exact ⟨_, _, h.loaded.1, fun a ha => .inr ha⟩
  have hkeep : ∀ i ∈ cpuSwitchTo.take 15, Reg.sp ∉ i.writes := by decide
  have hsub : cpuSwitchTo.take k ⊆ cpuSwitchTo.take 15 :=
    (take_prefix_take_left (by omega)).subset
  have hsame := execs_get (fun i hi => hkeep i (hsub hi)) c₀
  exact ⟨_, _, hsame.trans h.sp, fun a ha => .inl ha⟩

end SwitchCall

def Loc.returning : Loc → Bool
  | .restoreLower k => 2 ≤ k
  | .dropAsm k => 1 ≤ k
  | _ => false

lemma restoreLower_first (c₀ : Core) : execs (restoreLower.take 1) c₀ =
    { c₀ with x := update c₀.x 2 (c₀.mem (c₀.sp.at 160)) } := rfl

lemma restoreLower_early (c₀ : Core) (hk : k < 2) :
  (execs (restoreLower.take k) c₀).mem = c₀.mem ∧ (execs (restoreLower.take k) c₀).sp = c₀.sp := by
  interval_cases k <;> exact ⟨rfl, rfl⟩

lemma not_below_of_le {b : Block} {off : Int} (hle : o ≤ off) : ¬ below b o (b, off) :=
  fun h => absurd h.2 (not_lt.mpr hle)

def State.ticked (s : State) (c' : Core) : State :=
  { s with core := c', sched := Sched.schedOnTick s.sched }

lemma AllParked.ticked (h : AllParked s) (hcur : s.sched.current = some c)
  (hone : Sched.OneRunner s.sched.view) {c' : Core}
  (halike : Alike (below (.stack c) o) s.core c') : AllParked (s.ticked c') :=
  h.of_stack (Sched.view_schedOnTick _) hcur hone (fun _ _ => rfl)
    fun a ha => halike.mem a (not_below_of_block ha)

lemma Phase.ticked_restoring {f : Int} {t : Call} {c' : Core} (hloc : s.loc = .restoreLower k)
  (hk : k < 2) (ht : s.trapped c = some t) (hsp : c₀.sp = .ptr (.stack c) f)
  (hframe : Frame c₀.mem c t f) (hx : ∀ r, r ∉ regsFrame.map Prod.fst → c₀.x r = t.ctx.x r)
  (hcore : s.core = execs (restoreLower.take k) c₀) (hall : AllParked (s.ticked c'))
  (halike : Alike (below (.stack c) f) s.core c') : Phase (s.ticked c') c := by
  have hmem := hcore ▸ restoreLower_early c₀ hk
  have hcell : ∀ off, f ≤ off → c'.mem (.stack c, off) = c₀.mem (.stack c, off) := by
    intro off hoff
    rw [halike.mem _ (not_below_of_le hoff), hmem.1]
  have hframe' := hframe.congr hcell
  have hsp' : c'.sp = .ptr (.stack c) f := by rw [halike.sp, hmem.2, hsp]
  interval_cases k
  · refine .restoring 0 f t c' hloc (by decide) ht hsp' hframe' (fun r hr => ?_) rfl hall
    rw [halike.x, hcore]
    exact hx r hr
  -- `x2` has been loaded; it is the same as if it were loaded now.
  have hx' : c'.x = update c₀.x 2 (c₀.mem (c₀.sp.at 160)) := by
    rw [halike.x, hcore, restoreLower_first]
  refine .restoring 1 f t { c' with x := c₀.x } hloc (by decide) ht hsp' hframe' hx ?_ hall
  have hload : c'.mem (c'.sp.at 160) = c₀.mem (c₀.sp.at 160) := by
    rw [hsp', hsp]
    exact hcell _ (by omega)
  rw [restoreLower_first]
  rw [hload, ← hx']
  rfl

lemma Phase.tick (h : Phase s c) (hcur : s.sched.current = some c)
  (hone : Sched.OneRunner s.sched.view) (huser : s.loc ≠ .user)
  (hwindow : s.loc.returning = false) (clobbered : Fin 31 → Word) (junk : Int → Word) :
  ∃ c', c'.spEl0 = s.core.spEl0 ∧ tickKernel s clobbered junk = s.ticked c' ∧
    Phase (s.ticked c') c := by
  cases h with
  | running o hsp hres hall =>
    obtain ⟨c', halike, heq⟩ := tickKernel_eq hsp clobbered junk
    refine ⟨c', halike.spEl0, heq, .running o (halike.sp.trans hsp) ?_
      (hall.ticked hcur hone halike)⟩
    exact hres.congr fun off hoff => halike.mem _ (not_below_of_le hoff)
  | user o hloc => exact absurd hloc huser
  | idle o hloc hsp hall =>
    obtain ⟨c', halike, heq⟩ := tickKernel_eq hsp clobbered junk
    exact ⟨c', halike.spEl0, heq, .idle o hloc (halike.sp.trans hsp)
      (hall.ticked hcur hone halike)⟩
  | dropping k o hloc hk hsp hnone hx hspsr hall =>
    obtain ⟨c', halike, heq⟩ := tickKernel_eq hsp clobbered junk
    have hfirst : ¬ 1 ≤ k := by simpa [hloc, Loc.returning] using hwindow
    exact ⟨c', halike.spEl0, heq, .dropping k o hloc hk (halike.sp.trans hsp) hnone
      ((congrFun halike.x 0).trans hx) (fun hpos => absurd hpos hfirst)
      (hall.ticked hcur hone halike)⟩
  | restoring k f t c₀ hloc hk ht hsp hframe hx hcore hall =>
    have hearly : k < 2 := by simpa [hloc, Loc.returning] using hwindow
    have hsp' : s.core.sp = .ptr (.stack c) f := by
      rw [hcore, (restoreLower_early c₀ hearly).2, hsp]
    obtain ⟨c', halike, heq⟩ := tickKernel_eq hsp' clobbered junk
    exact ⟨c', halike.spEl0, heq, Phase.ticked_restoring hloc hearly ht hsp hframe hx hcore
      (hall.ticked hcur hone halike) halike⟩
  | switching k p o on lr ln c₀ hloc hk hcall halike =>
    obtain ⟨b, off, hsp, hdead⟩ := hcall.sp_take hk
    obtain ⟨c', halike', heq⟩ := tickKernel_eq (halike.sp.trans hsp) clobbered junk
    exact ⟨c', halike'.spEl0, heq, .switching k p o on lr ln c₀ hloc hk
      (hcall.congr (Sched.view_schedOnTick _) rfl) (halike.trans (halike'.mono hdead))⟩

lemma Phase.of_user (h : Phase s c) (hloc : s.loc = .user) :
  ∃ o, s.core.sp = .ptr (.stack c) o ∧ s.trapped c = none ∧ AllParked s := by
  cases h with
  | running o _ hres => exact absurd hres (by simp [hloc, Resumable])
  | user o _ hsp hnone hall => exact ⟨o, hsp, hnone, hall⟩
  | idle o hloc' => exact absurd (hloc.symm.trans hloc') (by simp)
  | dropping k o hloc' => exact absurd (hloc.symm.trans hloc') (by simp)
  | restoring k f t c₀ hloc' => exact absurd (hloc.symm.trans hloc') (by simp)
  | switching k p o on lr ln c₀ hloc' => exact absurd (hloc.symm.trans hloc') (by simp)

lemma Phase.tickUser (h : Phase s c) (hcur : s.sched.current = some c)
  (hone : Sched.OneRunner s.sched.view) (hloc : s.loc = .user) (u : Ctx)
  (clobbered : Fin 31 → Word) (junk : Int → Word) : Phase (tickUser s u clobbered junk) c ∧
    (Trap.tickUser s u clobbered junk).sched = Sched.schedOnTick s.sched ∧
    (Trap.tickUser s u clobbered junk).loc = .user ∧
    (Trap.tickUser s u clobbered junk).trapped = s.trapped := by
  obtain ⟨o, hsp, hnone, hall⟩ := h.of_user hloc
  obtain ⟨c', halike, _, _, heq⟩ := tickUser_eq hsp u clobbered junk
  rw [heq]
  refine ⟨.user o rfl (halike.sp.trans hsp) hnone ?_, rfl, rfl, rfl⟩
  exact hall.of_stack (Sched.view_schedOnTick _) hcur hone (fun _ _ => rfl)
    fun a ha => halike.mem a (not_below_of_block ha)

lemma svc_record (hsp : s.core.sp = .ptr (.stack c) o) (u : Ctx) :
  (svc s u).core.sp = .ptr (.stack c) (o - 272) ∧ Record (svc s u).core.mem c ⟨u, u.x 0⟩ (o - 272) ∧
    (∀ a : Cell, a.1 ≠ .stack c → (svc s u).core.mem a = s.core.mem a) ∧
    (svc s u).core.spEl0 = u.spEl0 := by
  have hsp' : (u.enter s.core).sp = .ptr (.stack c) o := hsp
  obtain ⟨hregs, helr, hspsr, hmem⟩ := saveLower_frame hsp'
  obtain ⟨c₁, hc₁⟩ : ∃ c₁, c₁ = execs saveLower (u.enter s.core) := ⟨_, rfl⟩
  have hsp₁ : c₁.sp = .ptr (.stack c) (o - 176) := by
    rw [hc₁, saveLower_eq, hsp']
    rfl
  have hx₁ : ∀ r : Fin 31, r ≠ 0 → r ≠ 2 → c₁.x r = u.x r := by
    intro r h₀ h₂
    rw [hc₁, saveLower_eq]
    dsimp only
    rw [update_of_ne h₀, update_of_ne h₂, update_of_ne h₂]
    rfl
  have hspEl0 : c₁.spEl0 = u.spEl0 := by
    rw [hc₁, saveLower_eq]
    rfl
  rw [← hc₁] at hregs helr hspsr hmem
  have hcore : (svc s u).core =
      execs prologue { c₁ with x := update c₁.x 30 (.code (.restoreLower 0)) } := by
    rw [hc₁]
    rfl
  have hframe : c₁.sp.shift (-96) = .ptr (.stack c) (o - 272) := by
    rw [hsp₁]
    exact congrArg (Word.ptr _) (by omega)
  rw [hcore, prologue_eq, hframe]
  have habove : ∀ a, ¬ below (.stack c) (o - 176) a →
      spill (Word.ptr (.stack c) (o - 272)).at (update c₁.x 30 (.code (.restoreLower 0)))
        calleeFrame c₁.mem a = c₁.mem a := by
    have hoff : o - 272 = o - 176 - (96 : Nat) := by omega
    rw [hoff]
    exact fun a ha => spill_above calleeFrame_lt _ _ ha
  refine ⟨rfl, ⟨fun p hp => ?_, ?_⟩, fun a ha => ?_, hspEl0⟩
  · have hslot := spill_slot (x := update c₁.x 30 (.code (.restoreLower 0))) (m := c₁.mem)
      (Word.at_injective (.ptr (.stack c) (o - 272))) calleeFrame_slots hp
    have hne : ∀ q ∈ calleeFrame, q.1 ≠ 0 ∧ q.1 ≠ 2 := by decide
    refine hslot.trans ?_
    by_cases hlink : p.1 = 30
    · rw [hlink, update_self, update_self]
    rw [update_of_ne hlink, update_of_ne hlink]
    exact hx₁ _ (hne p hp).1 (hne p hp).2
  · have hbase : o - 272 + 96 = o - 176 := by omega
    have hself : (⟨u, u.x 0⟩ : Call).regs = u.x := Function.update_eq_self _ _
    rw [hbase]
    refine ⟨fun p hp => ?_, ?_, ?_⟩
    · rw [hself]
      exact (habove _ (not_below_at _)).trans (hregs p hp)
    · exact (habove _ (not_below_at _)).trans helr
    · exact (habove _ (not_below_at _)).trans hspsr
  · exact (habove a (not_below_of_block ha)).trans (hmem a (not_below_of_block ha))

lemma Phase.svc (h : Phase s c) (hcur : s.sched.current = some c)
  (hone : Sched.OneRunner s.sched.view) (hloc : s.loc = .user) (u : Ctx) : Phase (svc s u) c := by
  obtain ⟨o, hsp, _, hall⟩ := h.of_user hloc
  obtain ⟨hsp', hrecord, hmem, _⟩ := svc_record hsp u
  have htrapped : (Trap.svc s u).trapped = update s.trapped c (some ⟨u, u.x 0⟩) := by
    rw [← cur_eq hcur]
    rfl
  refine .running (o - 272) hsp' ?_ ?_
  · rw [htrapped, update_self]
    change Record _ _ _ (o - 272 + (0 : Nat))
    rwa [Nat.cast_zero, Int.add_zero]
  refine hall.of_stack rfl hcur hone (fun t ht => ?_) hmem
  rw [htrapped, update_of_ne ht]

/-! ## C code -/

def Loc.inC : Loc → Bool
  | .body _ | .thread | .userDrop => true
  | _ => false

section
variable (h : Phase s c)
include h

lemma Phase.of_inC (hloc : s.loc.inC = true) :
  ∃ o, s.core.sp = .ptr (.stack c) o ∧ Resumable s.core.mem c (s.trapped c) s.loc o ∧
    AllParked s := by
  cases h with
  | running o hsp hres hall => exact ⟨o, hsp, hres, hall⟩
  | user o hloc' => simp [hloc', Loc.inC] at hloc
  | idle o hloc' => simp [hloc', Loc.inC] at hloc
  | dropping k o hloc' => simp [hloc', Loc.inC] at hloc
  | restoring k f t c₀ hloc' => simp [hloc', Loc.inC] at hloc
  | switching k p o on lr ln c₀ hloc' => simp [hloc', Loc.inC] at hloc

lemma Phase.of_body (hloc : s.loc = .body depth) :
  ∃ o t, s.core.sp = .ptr (.stack c) o ∧ s.trapped c = some t ∧
    Record s.core.mem c t (o + depth) ∧ AllParked s := by
  obtain ⟨o, hsp, hres, hall⟩ := h.of_inC (by rw [hloc]; rfl)
  rw [hloc] at hres
  cases ht : s.trapped c with
  | none =>
    rw [ht] at hres
    exact hres.elim
  | some t =>
    rw [ht] at hres
    exact ⟨o, t, hsp, rfl, hres, hall⟩

/-- Step lemma for the C code of a system call. -/
lemma Phase.workBody (hcur : s.sched.current = some c) (hone : Sched.OneRunner s.sched.view)
    (hloc : s.loc = .body depth) (w : Work) : Phase (workBody s depth w) c := by
  obtain ⟨o, t, hsp, ht, hrecord, hall⟩ := h.of_body hloc
  have hbase : s.core.sp.shift depth = .ptr (.stack c) (o + depth) := by
    rw [hsp]
    rfl
  have hjunk : ∀ a, ¬ below (.stack c) (o + depth) a →
      scribble s.core.mem (.ptr (.stack c) (o + depth)) w.junk a = s.core.mem a :=
    fun a ha => scribble_above _ _ ha
  have hkept := hrecord.congr fun off hoff => hjunk _ (not_below_of_le hoff)
  have hsame : o + depth - w.depth + w.depth = o + depth := by omega
  have hcur' := cur_eq hcur
  refine .running (o + depth - w.depth) ?_ ?_ (hall.of_stack rfl hcur hone (fun t ht => ?_)
    fun a ha => ?_)
  · simp only [Trap.workBody, hbase]
    rfl
  · cases hr : w.result with
    | none =>
      simp only [Trap.workBody, hr, hbase, ht, Resumable, hsame]
      exact hkept
    | some r =>
      simp only [Trap.workBody, hr, hbase, hcur', update_self, ht, map_some,
        Resumable, hsame]
      exact hkept.setResult r
  · cases hr : w.result with
    | none => simp only [Trap.workBody, hr]
    | some r => simp only [Trap.workBody, hr, hcur', update_of_ne ht]
  cases hr : w.result with
  | none =>
    simp only [Trap.workBody, hr, hbase]
    exact hjunk a (not_below_of_block ha)
  | some r =>
    have hne : a ≠ (Word.ptr (.stack c) (o + depth)).at 96 := by
      rintro rfl
      exact ha rfl
    simp only [Trap.workBody, hr, hbase, update_of_ne hne]
    exact hjunk a (not_below_of_block ha)

/-- Step lemma for the C code of a kernel thread. -/
lemma Phase.workThread (hcur : s.sched.current = some c) (hone : Sched.OneRunner s.sched.view)
    (hloc : s.loc = .thread) (w : Work) : Phase (workThread s w) c := by
  obtain ⟨o, _, hres, hall⟩ := h.of_inC (by rw [hloc]; rfl)
  have hcur' := cur_eq hcur
  refine .running (-w.depth) (by simp only [Trap.workThread, hcur']) ?_
    (hall.of_stack rfl hcur hone (fun _ _ => rfl) fun a ha => ?_)
  · rw [hloc] at hres
    change Resumable _ c (s.trapped c) s.loc _
    rw [hloc]
    cases ht : s.trapped c with
    | none => trivial
    | some t =>
      rw [ht] at hres
      exact hres.elim
  simp only [Trap.workThread, hcur']
  exact scribble_above _ _ (not_below_of_block ha)

/-- Step lemma for the C code of `syscall_user_drop`. -/
lemma Phase.workDrop (hcur : s.sched.current = some c) (hone : Sched.OneRunner s.sched.view)
    (hloc : s.loc = .userDrop) (w : Work) : Phase (workDrop s w) c := by
  obtain ⟨o, hsp, hres, hall⟩ := h.of_inC (by rw [hloc]; rfl)
  have hnone : s.trapped c = none := by
    rw [hloc] at hres
    cases ht : s.trapped c with
    | none => rfl
    | some t =>
      rw [ht] at hres
      exact hres.elim
  refine .dropping 0 (o - w.depth) rfl (by decide) ?_ hnone rfl (fun h => absurd h (by decide))
    (hall.of_stack rfl hcur hone (fun _ _ => rfl) fun a ha => ?_)
  · simp only [Trap.workDrop, hsp]
    rfl
  simp only [Trap.workDrop, hsp]
  exact scribble_above _ _ (not_below_of_block ha)

lemma Phase.finish (hcur : s.sched.current = some c) (hone : Sched.OneRunner s.sched.view)
    (hloc : s.loc = .body depth) :
  ∃ core, finish s depth = { s with core := core, loc := .restoreLower 0 } ∧
    core.spEl0 = s.core.spEl0 ∧ Phase { s with core := core, loc := .restoreLower 0 } c := by
  obtain ⟨o, t, hsp, ht, hrecord, hall⟩ := h.of_body hloc
  have hbase : s.core.sp.shift depth = .ptr (.stack c) (o + depth) := by
    rw [hsp]
    rfl
  obtain ⟨core, hcore⟩ : ∃ core,
    core = execs epilogue { s.core with sp := s.core.sp.shift depth } :=
    ⟨_, rfl⟩
  have hdone := hcore
  rw [epilogue_eq, hbase] at hdone
  have hload : ∀ p ∈ calleeFrame, core.x p.1 =
      update t.ctx.x 30 (.code (.restoreLower 0)) p.1 := by
    intro p hp
    rw [hdone]
    exact (fill_slot calleeFrame_regs hp).trans (hrecord.regs p hp)
  have hlink : core.x 30 = .code (.restoreLower 0) := by
    have := hload (30, 88) (by decide)
    rwa [update_self] at this
  have hmem : core.mem = s.core.mem := by rw [hdone]
  refine ⟨core, ?_, by rw [hdone], ?_⟩
  · rw [Trap.finish, ← hcore, ret, hlink]
  refine .restoring 0 (o + depth + 96) t core rfl (by decide) ht ?_ ?_ (fun r hr => ?_) rfl
    (hall.of_stack rfl hcur hone (fun _ _ => rfl) fun a _ => congrFun hmem a)
  · rw [hdone]
    rfl
  · rw [hmem]
    exact hrecord.frame
  have hcallee : ∀ r : Fin 31, r ∉ regsFrame.map Prod.fst →
      ∃ p ∈ calleeFrame, p.1 = r ∧ r ≠ 30 := by decide
  obtain ⟨p, hp, rfl, hne⟩ := hcallee r hr
  rw [hload p hp, update_of_ne hne]

end

lemma cpuSwitchTo_reads {i : Instr} (hi : i ∈ cpuSwitchTo) {core : Core}
  (hnext : core.x 1 = .ptr (.area n) 0) : ∀ a ∈ i.reads core, a.1 = .area n := by
  simp only [cpuSwitchTo, mem_cons, not_mem_nil, or_false] at hi
  rcases hi with rfl | rfl | rfl | rfl | rfl | rfl | rfl | rfl | rfl | rfl | rfl | rfl | rfl | rfl |
    rfl | rfl <;> simp [Instr.reads, Core.get, hnext]

section
variable (h : SwitchCall s p c o on lr ln c₀)
include h

lemma SwitchCall.step {core : Core} {i : Instr} (hi : cpuSwitchTo[k]? = some i)
    (halike : Alike (deadIn p o c on) (execs (cpuSwitchTo.take k) c₀) core) :
  Alike (deadIn p o c on) (execs (cpuSwitchTo.take (k + 1)) c₀) (exec core i) := by
  have hmem := List.mem_of_getElem? hi
  have hplain : ∀ i ∈ cpuSwitchTo, i.plain = true := by decide
  have hkeep : ∀ i ∈ cpuSwitchTo, Reg.x 1 ∉ i.writes := by decide
  have hnext : (execs (cpuSwitchTo.take k) c₀).x 1 = .ptr (.area c) 0 :=
    (execs_get (fun i hi => hkeep i (take_subset _ _ hi)) c₀).trans h.nextArea
  rw [execs_take_succ hi]
  refine exec_alike halike (hplain i hmem) fun a ha hdead => ?_
  have harea := cpuSwitchTo_reads hmem hnext a ha
  rcases hdead with hdead | hdead
  · exact absurd (harea.symm.trans hdead.1) (by simp)
  · exact absurd (harea.symm.trans hdead.1) (by simp)

lemma SwitchCall.arrive (hcur : s.sched.current = some c) (hone : Sched.OneRunner s.sched.view)
    (halike : Alike (deadIn p o c on) (execs cpuSwitchTo c₀) s.core) :
  ret s = { s with loc := ln } ∧ Phase { s with loc := ln } c := by
  obtain ⟨hsp, hlink, hmem⟩ := h.loaded
  rw [← halike.sp] at hsp
  rw [← halike.x] at hlink
  have hcell : ∀ a, ¬ deadIn p o c on a → a.1 ≠ .area p → s.core.mem a = c₀.mem a := by
    intro a ha hne
    rw [halike.mem a ha, hmem, h.switchMem_of_ne hne]
  refine ⟨by rw [ret, hlink], .running on hsp ?_ fun t ht => ?_⟩
  · refine h.entering.congr fun off hoff => hcell _ ?_ (by simp)
    rintro (hdead | hdead)
    · exact h.ne (Block.stack.inj hdead.1).symm
    · exact not_below_of_le hoff hdead
  have htc := ready_ne hcur hone (s := s) ht
  by_cases htp : t = p
  · subst htp
    have harea : ∀ off, s.core.mem (.area t, off) = switchMem c₀ (.area t, off) := by
      intro off
      rw [halike.mem _ (by simp [deadIn, below]), hmem]
    refine ⟨o, lr, (harea 96).trans h.switchMem_sp, (harea 88).trans h.switchMem_link, ?_⟩
    refine (h.leaving ht).congr fun off hoff => hcell _ ?_ (by simp)
    rintro (hdead | hdead)
    · exact not_below_of_le hoff hdead
    · exact htc (Block.stack.inj hdead.1)
  refine (h.rest t htp ht).congr (fun off => hcell _ ?_ ?_) fun off => hcell _ ?_ (by simp)
  · simp [deadIn, below]
  · simpa using htp
  · simp [deadIn, below, htp, htc]

end

lemma restored {f : Int} {t : Call} (hsp : c₀.sp = .ptr (.stack c) f)
  (hframe : Frame c₀.mem c t f) (hx : ∀ r, r ∉ regsFrame.map Prod.fst → c₀.x r = t.ctx.x r) :
  (execs restoreLower c₀).sp = .ptr (.stack c) (f + 176) ∧
    (execs restoreLower c₀).x = t.regs ∧ (execs restoreLower c₀).elr = t.ctx.pc ∧
    (execs restoreLower c₀).spsr = .pstate (userPstate t.ctx.flags) := by
  rw [restoreLower_eq, hsp]
  refine ⟨rfl, fill_eq regsFrame_regs (fun p hp => hframe.regs p hp) fun r hr => ?_, hframe.elr,
    hframe.spsr⟩
  obtain ⟨h₀, h₂⟩ := notMem_regsFrame_ne hr
  rw [update_of_ne h₂, update_of_ne h₂, hx r hr, Call.regs,
    update_of_ne h₀]

lemma Inv.asm (h : Inv s) (hasm : admits s .asm = true) : Inv (stepAsm s) := by
  obtain ⟨c, hcur, hone, hshared, hphase⟩ := h
  cases hphase with
  | running o hsp hres hall =>
    exfalso
    unfold Resumable at hres
    split at hres <;> simp_all [admits]
  | user o hloc => simp [admits, hloc] at hasm
  | idle o hloc => simp [admits, hloc] at hasm
  | dropping k o hloc hk hsp hnone hx hspsr hall =>
    have hstep : stepAsm s = asmStep s userDropAsm .dropAsm k eret := by rw [stepAsm, hloc]
    rw [hstep]
    interval_cases k
    · exact ⟨c, hcur, hone, hshared.of_trapped_eq rfl fun _ => ⟨by rw [hloc]; rfl, rfl⟩,
        .dropping 1 o rfl (by decide) hsp hnone hx (fun _ => hx) hall⟩
    · exact ⟨c, hcur, hone, hshared.of_trapped_eq rfl fun _ => ⟨by rw [hloc]; rfl, rfl⟩,
        .dropping 2 o rfl (by decide) hsp hnone hx (fun _ => hspsr le_rfl) hall⟩
    · exact ⟨c, hcur, hone, hshared.of_trapped_eq rfl fun hin => (by cases hin),
        .dropping 3 o rfl (by decide) hsp hnone hx (fun _ => hspsr (by decide)) hall⟩
    have heret : asmStep s userDropAsm .dropAsm 3 eret =
        { s with loc := .user, irqMasked := false } := by
      change eret s = _
      rw [eret, hspsr (by decide)]
      rfl
    rw [heret]
    exact ⟨c, hcur, hone, hshared.of_trapped_eq rfl fun hin => (by cases hin),
      .user o rfl hsp hnone hall⟩
  | restoring k f t c₀ hloc hk ht hsp hframe hx hcore hall =>
    have hstep : stepAsm s = asmStep s restoreLower .restoreLower k eretCall := by
      rw [stepAsm, hloc]
    rw [hstep, asmStep]
    by_cases hlast : k = 16
    · subst hlast
      obtain ⟨hsp', _, _, hspsr⟩ := restored hsp hframe hx
      have hdone : s.core = execs restoreLower c₀ := hcore
      have heret : eret s = { s with loc := .user, irqMasked := false } := by
        rw [eret, hdone, hspsr]
        rfl
      rw [eretCall, heret, cur_eq hcur]
      refine ⟨c, hcur, hone, hshared.of_cleared rfl fun hin => (by cases hin),
        .user (f + 176) rfl (by rw [hdone]; exact hsp') (update_self _ _ _) ?_⟩
      exact hall.of_stack rfl hcur hone (fun t ht => update_of_ne ht _ _)
        fun _ _ => rfl
    have hlt : k < restoreLower.length := by
      change k < 16
      omega
    have hload : ∀ i ∈ restoreLower, i.stores = false ∧ i.setsSpEl0 = false := by decide
    obtain ⟨i, hi⟩ : ∃ i, restoreLower[k]? = some i := ⟨_, List.getElem?_eq_getElem hlt⟩
    obtain ⟨hstores, hspEl0⟩ := hload i (List.mem_of_getElem? hi)
    rw [hi]
    refine ⟨c, hcur, hone, hshared.of_trapped_eq rfl fun _ =>
      ⟨by rw [hloc]; rfl, exec_spEl0 hspEl0 _⟩,
      .restoring (k + 1) f t c₀ rfl (by omega) ht hsp hframe hx ?_ ?_⟩
    · rw [execs_take_succ hi, ← hcore]
    exact hall.of_stack rfl hcur hone (fun _ _ => rfl)
      fun a _ => congrFun (exec_mem hstores s.core) a
  | switching k p o on lr ln c₀ hloc hk hcall halike =>
    have hstep : stepAsm s = asmStep s cpuSwitchTo .switchTo k ret := by rw [stepAsm, hloc]
    rw [hstep, asmStep]
    by_cases hlast : k = 16
    · subst hlast
      obtain ⟨hret, hphase⟩ := hcall.arrive hcur hone halike
      rw [hret]
      exact ⟨c, hcur, hone, hshared.of_trapped_eq rfl fun _ => ⟨by rw [hloc]; rfl, rfl⟩, hphase⟩
    have hlt : k < cpuSwitchTo.length := by
      change k < 16
      omega
    have hplain : ∀ i ∈ cpuSwitchTo, i.setsSpEl0 = false := by decide
    obtain ⟨i, hi⟩ : ∃ i, cpuSwitchTo[k]? = some i := ⟨_, List.getElem?_eq_getElem hlt⟩
    rw [hi]
    exact ⟨c, hcur, hone, hshared.of_trapped_eq rfl fun _ =>
      ⟨by rw [hloc]; rfl, exec_spEl0 (hplain i (List.mem_of_getElem? hi)) _⟩,
      .switching (k + 1) p o on lr ln c₀ rfl (by omega) (hcall.congr rfl rfl)
        (hcall.step hi halike)⟩

/-! ## Calls into the scheduler -/

lemma executing_iff (h : executing t = true) : Sched.Executing t := by
  unfold executing at h
  split at h
  · next c hcur => exact ⟨c, hcur, by simpa using h⟩
  · cases h

lemma spawned_none (hnone : ∀ slot, ¬ Sched.SpawnsInto t e slot) : spawned t e = none := by
  cases e with
  | spawn name entry stack stackLen =>
    simp only [spawned, map_eq_none_iff]
    exact eq_none_iff_forall_ne_some.mpr hnone
  | spawnUser name as uentry usp pid stack stackLen =>
    simp only [spawned, map_eq_none_iff]
    exact eq_none_iff_forall_ne_some.mpr hnone
  | yield | exit | tick | watchdogSet => rfl

lemma spawned_some (hinto : Sched.SpawnsInto t e slot) :
  ∃ x19 lr, spawned t e = some (slot, x19, lr) ∧ (lr = .thread ∨ lr = .userDrop) := by
  cases e with
  | spawn name entry stack stackLen =>
    exact ⟨_, _, by rw [spawned, hinto]; rfl, .inl rfl⟩
  | spawnUser name as uentry usp pid stack stackLen =>
    exact ⟨_, _, by rw [spawned, hinto]; rfl, .inr rfl⟩
  | yield | exit | tick | watchdogSet => exact hinto.elim

lemma parked_freshArea (m : Cell → Word) (slot : Nat) (x19 : Word)
  (hlr : lr = .thread ∨ lr = .userDrop) : Parked (freshArea m slot x19 lr) slot none := by
  refine ⟨0, lr, ?_, ?_, ?_⟩
  · simp [freshArea]
  · simp [freshArea]
  · rcases hlr with rfl | rfl <;> trivial

lemma freshArea_of_ne (m : Cell → Word) (x19 : Word) (lr : Loc) {a : Cell} (ha : a.1 ≠ .area slot) :
  freshArea m slot x19 lr a = m a := if_neg ha

variable {sched : Sched.State}

lemma Phase.spawned {x19 : Word} (h : Phase s c) (hloc : s.loc.inC = true)
  (hne : slot ≠ c) (hlr : lr = .thread ∨ lr = .userDrop)
  (hview : sched.view = s.sched.view.set slot .ready) :
  Phase { s with sched := sched
                 core := { s.core with mem := freshArea s.core.mem slot x19 lr }
                 trapped := update s.trapped slot none } c := by
  obtain ⟨o, hsp, hres, hall⟩ := h.of_inC hloc
  have hstack : ∀ t off, freshArea s.core.mem slot x19 lr (.stack t, off) =
      s.core.mem (.stack t, off) := fun t off => freshArea_of_ne _ _ _ (by simp)
  refine .running o hsp ?_ fun t ht => ?_
  · change Resumable _ c (update s.trapped slot none c) s.loc o
    rw [update_of_ne hne.symm]
    exact hres.congr fun off _ => hstack c off
  change Parked _ t (update s.trapped slot none t)
  by_cases hslot : t = slot
  · rw [hslot, update_self]
    exact parked_freshArea _ _ _ hlr
  have hold : s.Ready t := by
    refine ⟨ht.1, ?_⟩
    rw [← Sched.View.set_st_of_ne s.sched.view .ready hslot, ← hview]
    exact ht.2
  rw [update_of_ne hslot]
  exact (hall t hold).congr (fun off => freshArea_of_ne _ _ _ (by simpa using hslot))
    fun off => hstack t off

lemma Phase.switched {state : Sched.TaskState} (h : Phase s c)
  (hloc : s.loc.inC = true) (hne : n ≠ c) (hn : s.Ready n)
  (hview : sched.view = (s.sched.view.set c state).handTo n) :
  Phase (callSwitch s sched ⟨c, n⟩) n := by
  obtain ⟨o, hsp, hres, hall⟩ := h.of_inC hloc
  obtain ⟨on, ln, hnextSp, hnextLink, hentering⟩ := hall n hn
  have hold : ∀ t, t ≠ c → (callSwitch s sched ⟨c, n⟩).Ready t → s.Ready t ∧ t ≠ n := by
    intro t htc ht
    have hst : sched.view.st t = .ready := ht.2
    rw [hview] at hst
    have htn : t ≠ n := by
      rintro rfl
      rw [Sched.View.handTo_st_same] at hst
      cases hst
    rw [Sched.View.handTo_st_of_ne _ htn, Sched.View.set_st_of_ne _ _ htc] at hst
    exact ⟨⟨ht.1, hst⟩, htn⟩
  have htrapped : ∀ t, t ≠ c → (callSwitch s sched ⟨c, n⟩).trapped t = s.trapped t := by
    intro t ht
    simp only [callSwitch]
    split_ifs
    · rfl
    · exact update_of_ne ht _ _
  refine .switching 0 c o on s.loc ln (callSwitch s sched ⟨c, n⟩).core rfl (by decide) ?_
    ⟨rfl, rfl, rfl, fun _ _ => rfl⟩
  exact
    { ne := hne.symm
      prevArea := rfl
      nextArea := rfl
      sp := hsp
      link := rfl
      leaving := by
        intro hready
        have hst : (sched.tasks c).state = .ready := hready.2
        have hsame : (callSwitch s sched ⟨c, n⟩).trapped c = s.trapped c := by
          simp only [callSwitch, if_pos hst]
        rw [hsame]
        exact hres
      nextSp := hnextSp
      nextLink := hnextLink
      entering := by
        rw [htrapped n hne]
        exact hentering
      rest := by
        intro t htc ht
        rw [htrapped t htc]
        exact hall t (hold t htc ht).1 }

lemma SharedSp.callSwitch (h : SharedSp s) (hloc : s.loc.inC = true) (sched : Sched.State)
  (d : Sched.Dispatch) : SharedSp (callSwitch s sched d) := by
  have hin : s.loc.inKernel = true := by
    revert hloc
    cases s.loc <;> simp [Loc.inC, Loc.inKernel]
  by_cases hready : (sched.tasks d.prev).state = .ready
  · exact h.of_trapped_eq (if_pos hready) fun _ => ⟨hin, rfl⟩
  · exact h.of_cleared (if_neg hready) fun _ => ⟨hin, rfl⟩

lemma Inv.call (h : Inv s) (hloc : s.loc.inC = true) (hexec : Sched.Executing s.sched)
  (he : e ≠ .tick) : Inv (call s e) := by
  obtain ⟨c, hcur, hone, hshared, hphase⟩ := h
  have hin : s.loc.inKernel = true := by
    revert hloc
    cases s.loc <;> simp [Loc.inC, Loc.inKernel]
  have hadmits : Sched.admits s.sched e := by
    cases e with
    | tick => exact absurd rfl he
    | spawn | spawnUser | yield | exit | watchdogSet => exact hexec
  have hrun : s.sched.view.st c = .running := by
    obtain ⟨c', hcur', hrun⟩ := hexec
    rwa [some.inj (hcur.symm.trans hcur')]
  have heffect := Sched.react_effect s.sched e hadmits
  have hone' := Sched.oneRunner_effect hone hadmits heffect
  have hc := hone.lt hcur
  rw [Trap.call]
  generalize Sched.react s.sched e = r at heffect hone'
  obtain ⟨sched, d⟩ := r
  generalize hview : sched.view = v at heffect
  have hcurrent : sched.current = v.cur := by
    rw [← hview]
    rfl
  have hstate : (sched.tasks c).state = v.st c := by
    rw [← hview]
    rfl
  cases heffect with
  | quiet hnone =>
    have hquiet : callQuiet s sched e = { s with sched := sched } := by
      rw [callQuiet, cur_eq hcur, hstate, hrun, if_neg (by simp), spawned_none hnone]
    rw [hquiet]
    obtain ⟨o, hsp, hres, hall⟩ := hphase.of_inC hloc
    exact ⟨c, hcurrent.trans hcur, hone', hshared.of_trapped_eq rfl fun _ => ⟨hin, rfl⟩,
      .running o hsp hres fun t ht => hall t ⟨ht.1, hview ▸ ht.2⟩⟩
  | spawned slot hinto hlt hfree =>
    have hne : slot ≠ c := by
      rintro rfl
      rcases hfree with hfree | hfree <;> exact absurd (hrun.symm.trans hfree) (by simp)
    obtain ⟨x19, lr, hspawned, hlr⟩ := spawned_some hinto
    have hquiet : callQuiet s sched e =
        { s with sched := sched
                 core := { s.core with mem := freshArea s.core.mem slot x19 lr }
                 trapped := update s.trapped slot none } := by
      rw [callQuiet, cur_eq hcur, hstate, Sched.View.set_st_of_ne _ _ hne.symm, hrun,
        if_neg (by simp), hspawned]
    rw [hquiet]
    exact ⟨c, hcurrent.trans hcur, hone', hshared.of_cleared rfl fun _ => ⟨hin, rfl⟩,
      hphase.spawned hloc hne hlr hview⟩
  | handed c' n hcur' hnext =>
    obtain rfl : c = c' := some.inj (hcur.symm.trans hcur')
    obtain ⟨hlt, hready⟩ := Sched.View.next_some hc hnext
    have hn : s.Ready n := ⟨hlt, hready⟩
    have hne := ready_ne hcur hone hn
    exact ⟨n, hcurrent, hone', hshared.callSwitch hloc _ _, hphase.switched hloc hne hn hview⟩
  | retired c' n hwhy hcur' hnext =>
    obtain rfl : c = c' := some.inj (hcur.symm.trans hcur')
    obtain ⟨hlt, hready⟩ := Sched.View.next_some hc hnext
    obtain ⟨hne, hready⟩ := Sched.View.of_set_st (by simp) hready
    exact ⟨n, hcurrent, hone', hshared.callSwitch hloc _ _,
      hphase.switched hloc hne ⟨hlt, hready⟩ hview⟩
  | parked c' hwhy hcur' hnone =>
    obtain rfl : c = c' := some.inj (hcur.symm.trans hcur')
    obtain ⟨o, hsp, _, hall⟩ := hphase.of_inC hloc
    have hidle : callQuiet s sched e =
        { s with sched := sched, loc := .idle, irqMasked := false
                 trapped := update s.trapped c none } := by
      rw [callQuiet, cur_eq hcur, hstate, Sched.View.set_st_same, if_pos rfl]
    rw [hidle]
    refine ⟨c, hcurrent.trans hcur, hone', hshared.of_cleared rfl fun _ => ⟨hin, rfl⟩,
      .idle o rfl hsp fun t ht => ?_⟩
    have hst : sched.view.st t = .ready := ht.2
    rw [hview] at hst
    obtain ⟨htc, hst⟩ := Sched.View.of_set_st (by simp) hst
    change Parked _ t (update s.trapped c none t)
    rw [update_of_ne htc]
    exact hall t ⟨ht.1, hst⟩

end
end Aeos.Trap
