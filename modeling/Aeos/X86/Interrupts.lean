/-
# Interrupt stubs

The entry and exit of an interrupt on x86-64: what the processor pushes, the `VECTOR`
stubs of `boot/x86_64/irqs.S`, and `preempt_thunk` of `boot/x86_64/switch.S`.
-/

import Aeos.X86.Machine

namespace Aeos.X86

open Lib List Function

structure Symbols where
  irqHandlerC : BitVec 64
  /-- In the stub, after the call of `irq_handler_c`. -/
  afterHandler : BitVec 64
  gPrend : BitVec 64
  gInThunk : BitVec 64
  preemptSv : BitVec 64
  preemptThunk : BitVec 64
  schedYield : BitVec 64
  /-- In the thunk, after the call of `sched_yield`. -/
  afterYield : BitVec 64
  preemptThunk_ne : preemptThunk ≠ 0

/-- What an interrupt finds: the stack pointer that the processor starts from, the stack segment
it loads, and the error code where there is one. -/
structure Gate where
  stack : BitVec 64
  ss : BitVec 64
  error : BitVec 64

def pushesError (vector : Nat) : Bool :=
  vector == 8 || (10 ≤ vector && vector ≤ 14) || vector == 17

def Gate.top (g : Gate) : BitVec 64 := g.stack &&& ~~~0xF#64

def gateFlags (flags : BitVec 64) : BitVec 64 :=
  setFlag (setFlag (setFlag (setFlag flags 9 false) 8 false) 14 false) 16 false

def pushed (g : Gate) (vector : Nat) (c : Core) : List (BitVec 64) :=
  (if pushesError vector then [g.error] else []) ++ [c.rip, c.cs, c.rflags, c.reg .rsp, c.ss]

def enterGate (g : Gate) (vector : Nat) (c : Core) : Core :=
  let frame := (pushed g vector c).reverse.foldl Core.pushWord (c.set .rsp g.top)
  { frame with rflags := gateFlags c.rflags, cs := 0x08, ss := g.ss }

def iretq (c : Core) : Core :=
  { c with
    rip := c.mem (c.reg .rsp)
    cs := c.mem (c.reg .rsp + 8)
    rflags := c.mem (c.reg .rsp + 8 + 8)
    reg := update c.reg .rsp (c.mem (c.reg .rsp + 8 + 8 + 8))
    ss := c.mem (c.reg .rsp + 8 + 8 + 8 + 8) }

/-! ## The stubs -/

def frameRegs : List Reg := [.rax, .rcx, .rdx, .rsi, .rdi, .r8, .r9, .r10, .r11]

def saveFrame : List Instr :=
  [.push .rax, .push .rcx, .push .rdx, .push .rsi, .push .rdi, .push .r8, .push .r9,
    .push .r10, .push .r11]

def loadFrame : List Instr :=
  [.pop .r11, .pop .r10, .pop .r9, .pop .r8, .pop .rdi, .pop .rsi, .pop .rdx, .pop .rcx,
    .pop .rax]

def hasErr (vector : Nat) : Bool := vector ∈ [8, 10, 11, 12, 13, 14, 17]

def vectorEntry (sym : Symbols) (vector : Nat) (c : Core) : Core :=
  call (execs ((if hasErr vector then [] else [.pushImm 0]) ++
    [.pushImm (BitVec.ofNat 64 vector)] ++ saveFrame ++ [.mov .rsp .rdi, .cld]) c)
    sym.irqHandlerC sym.afterHandler

def vectorTail (sym : Symbols) : List Instr :=
  loadFrame ++ [.add 16 .rsp, .loadAt sym.gPrend .rax, .test .rax .rax]

def vectorRedirect (sym : Symbols) : List Instr :=
  [.store .rax 0 .rsp, .xor .rax .rax, .storeAt .rax sym.gPrend]

def vectorExit (sym : Symbols) (c : Core) : Core :=
  let c := execs (vectorTail sym) c
  if zf c.rflags then iretq c else iretq (execs (vectorRedirect sym) c)

def thunkEntry (sym : Symbols) (c : Core) : Core :=
  call (execs
    [.storeImm 1 sym.gInThunk, .storeAt .rax sym.preemptSv, .storeAt .rcx (sym.preemptSv + 8),
      .storeAt .rdx (sym.preemptSv + 16), .storeAt .rsi (sym.preemptSv + 24),
      .storeAt .rdi (sym.preemptSv + 32), .storeAt .r8 (sym.preemptSv + 40),
      .storeAt .r9 (sym.preemptSv + 48), .storeAt .r10 (sym.preemptSv + 56),
      .storeAt .r11 (sym.preemptSv + 64)] c) sym.schedYield sym.afterYield

def thunkExit (sym : Symbols) (c : Core) : Core :=
  ret (execs
    [.loadAt sym.preemptSv .rax, .loadAt (sym.preemptSv + 8) .rcx,
      .loadAt (sym.preemptSv + 16) .rdx, .loadAt (sym.preemptSv + 24) .rsi,
      .loadAt (sym.preemptSv + 32) .rdi, .loadAt (sym.preemptSv + 40) .r8,
      .loadAt (sym.preemptSv + 48) .r9, .loadAt (sym.preemptSv + 56) .r10,
      .loadAt (sym.preemptSv + 64) .r11, .storeImm 0 sym.gInThunk] c)

def calleeSaved : List Reg := [.rbx, .rbp, .r12, .r13, .r14, .r15]

/-- A C function entered in `c` has returned in `c'`, with the stack pointer and the callee-saved
registers of its caller and the first `frame` words of the stack above its return address
unchanged. -/
structure Returns (frame : Nat) (c c' : Core) : Prop where
  rip : c'.rip = c.mem (c.reg .rsp)
  rsp : c'.reg .rsp = c.reg .rsp + 8
  saved : ∀ r ∈ calleeSaved, c'.reg r = c.reg r
  mem : ∀ k < frame, c'.mem (c.reg .rsp + 8 + BitVec.ofNat 64 (8 * k)) =
    c.mem (c.reg .rsp + 8 + BitVec.ofNat 64 (8 * k))

/-- `Resumes sym g vector armed c c'`: code interrupted in `c` goes on in `c'`; `armed`
says whether the handler had set `g_prend`. The frame is sixteen words: nine
registers, vector, error code, and the five words that `iretq` takes. -/
inductive Resumes (sym : Symbols) (g : Gate) (vector : Nat) (c : Core) : Bool → Core → Prop
  | direct {h : Core} : Returns 16 (vectorEntry sym vector (enterGate g vector c)) h →
      h.mem sym.gPrend = 0 → Resumes sym g vector c false (vectorExit sym h)
  | preempted {h y : Core} : Returns 16 (vectorEntry sym vector (enterGate g vector c)) h →
      h.mem sym.gPrend = sym.preemptThunk →
      Returns 0 (thunkEntry sym (vectorExit sym h)) y →
      Resumes sym g vector c true (thunkExit sym y)

def Unchanged (c c' : Core) : Prop := c'.rip = c.rip ∧ c'.reg = c.reg ∧ c'.rflags = c.rflags

/-- `g_prend` is not a word of the interrupt frame. -/
def Apart (sym : Symbols) (g : Gate) : Prop :=
  ∀ k < 5, g.top - 40 + BitVec.ofNat 64 (8 * k) ≠ sym.gPrend

/-! ## Pushing and popping -/

lemma execs_append (xs ys : List Instr) (c : Core) :
  execs (xs ++ ys) c = execs ys (execs xs c) := foldl_append

variable {c h : Core} {ws : List (BitVec 64)} {r : Reg} {sym : Symbols} {g : Gate} {vector : Nat}

lemma stacked_pushWord (h : Stacked c.mem (c.reg .rsp) ws) (w : BitVec 64)
  (hlen : ws.length < 2 ^ 60) : Stacked (c.pushWord w).mem ((c.pushWord w).reg .rsp) (w :: ws) := by
  exact h.push w hlen

lemma reg_pushWord (w : BitVec 64) (hr : r ≠ .rsp) :
  (c.pushWord w).reg r = c.reg r := update_of_ne hr _ _

lemma stacked_pushWords (h : Stacked c.mem (c.reg .rsp) ws) (vs : List (BitVec 64))
  (hlen : vs.length + ws.length < 2 ^ 60) :
  Stacked (vs.reverse.foldl Core.pushWord c).mem ((vs.reverse.foldl Core.pushWord c).reg .rsp)
    (vs ++ ws) := by
  induction vs with
  | nil => exact h
  | cons v vs ih =>
    rw [length_cons] at hlen
    rw [reverse_cons, foldl_append]
    exact stacked_pushWord (ih (by omega)) v (by rw [length_append]; omega)

lemma reg_pushWords (vs : List (BitVec 64)) (hr : r ≠ .rsp) :
  (vs.foldl Core.pushWord c).reg r = c.reg r := by
  induction vs generalizing c with
  | nil => rfl
  | cons v vs ih => exact (ih (c := c.pushWord v)).trans (reg_pushWord v hr)

variable {rs : List Reg}

lemma execs_push (hrs : .rsp ∉ rs) :
  execs (rs.map .push) c = (rs.map c.reg).foldl Core.pushWord c := by
  have hloop : ∀ c' : Core, (∀ r, r ≠ .rsp → c'.reg r = c.reg r) →
      execs (rs.map .push) c' = (rs.map c.reg).foldl Core.pushWord c' := by
    induction rs with
    | nil => exact fun _ _ => rfl
    | cons r rs ih =>
      obtain ⟨hr, hrs⟩ := not_or.mp (mt mem_cons.mpr hrs)
      intro c' hc'
      show execs (rs.map .push) (c'.pushWord (c'.reg r)) = _
      rw [hc' r (Ne.symm hr)]
      exact ih hrs _ fun q hq => (reg_pushWord _ hq).trans (hc' q hq)
  exact hloop c fun _ _ => rfl

lemma execs_pop (y : Reg → BitVec 64) (hrs : .rsp ∉ rs) (hnodup : rs.Nodup)
  (h : Stacked c.mem (c.reg .rsp) (rs.map y ++ ws)) : (execs (rs.map .pop) c).mem = c.mem ∧
    (execs (rs.map .pop) c).reg .rsp = c.reg .rsp + BitVec.ofNat 64 (8 * rs.length) ∧
    Stacked c.mem ((execs (rs.map .pop) c).reg .rsp) ws ∧
    (∀ r ∈ rs, (execs (rs.map .pop) c).reg r = y r) ∧
    ∀ r ∉ rs, r ≠ .rsp → (execs (rs.map .pop) c).reg r = c.reg r := by
  induction rs generalizing c with
  | nil => exact ⟨rfl, (BitVec.add_zero _).symm, h, fun _ hr => (nomatch hr), fun _ _ _ => rfl⟩
  | cons q rs ih =>
    obtain ⟨hq, hrs⟩ := not_or.mp (mt mem_cons.mpr hrs)
    obtain ⟨hfresh, hnodup⟩ := nodup_cons.mp hnodup
    obtain ⟨htop, hrest⟩ := h
    have hsp : (exec c (.pop q)).reg .rsp = c.reg .rsp + 8 := by
      simp [exec, Core.set, update_of_ne hq]
    have hval : (exec c (.pop q)).reg q = y q := by simp [exec, Core.set, htop]
    have hother : ∀ r, r ≠ q → r ≠ .rsp → (exec c (.pop q)).reg r = c.reg r := by
      intro r hr hr'
      simp [exec, Core.set, update_of_ne hr, update_of_ne hr']
    obtain ⟨hmem, hsp', hstack, hin, hout⟩ := ih (c := exec c (.pop q)) hrs hnodup
      (by rw [hsp]; exact hrest)
    refine ⟨hmem, ?_, hstack, ?_, ?_⟩
    · rw [hsp, BitVec.add_assoc] at hsp'
      rw [length_cons, Nat.mul_succ, Nat.add_comm, BitVec.ofNat_add]
      exact hsp'
    · intro r hr
      rcases mem_cons.mp hr with rfl | hr
      · exact (hout r hfresh (Ne.symm hq)).trans hval
      · exact hin r hr
    intro r hr hr'
    obtain ⟨hne, hr⟩ := not_or.mp (mt mem_cons.mpr hr)
    exact (hout r hr hr').trans (hother r hne hr')

lemma rsp_pushWords (vs : List (BitVec 64)) :
  (vs.foldl Core.pushWord c).reg .rsp = c.reg .rsp - BitVec.ofNat 64 (8 * vs.length) := by
  induction vs generalizing c with
  | nil => simp
  | cons v vs ih =>
    have hsp : (c.pushWord v).reg .rsp = c.reg .rsp - 8 := by simp [Core.pushWord]
    rw [foldl_cons, ih, hsp, length_cons, Nat.mul_succ, BitVec.ofNat_add]
    bv_omega

/-- The sixteen words on the stack while the handler runs. -/
def frame (g : Gate) (vector : Nat) (c : Core) : List (BitVec 64) :=
  frameRegs.reverse.map c.reg ++ [BitVec.ofNat 64 vector,
    if pushesError vector then g.error else 0, c.rip, c.cs, c.rflags, c.reg .rsp, c.ss]

lemma hasErr_eq (vector : Nat) : hasErr vector = pushesError vector := by
  rw [Bool.eq_iff_iff]
  simp only [hasErr, pushesError, mem_cons, not_mem_nil, decide_eq_true_eq,
    or_false, Bool.or_eq_true, Bool.and_eq_true, beq_iff_eq]
  omega

def stubWords (vector : Nat) : List (BitVec 64) :=
  (if hasErr vector then [] else [0]) ++ [BitVec.ofNat 64 vector]

lemma execs_pushImm (vector : Nat) (e : Core) :
  execs ((if hasErr vector then [] else [.pushImm 0]) ++ [.pushImm (BitVec.ofNat 64 vector)]) e =
    (stubWords vector).foldl Core.pushWord e := by
  unfold stubWords
  split <;> rfl

lemma reg_enterGate (g : Gate) (vector : Nat) (c : Core) (hr : r ≠ .rsp) :
  (enterGate g vector c).reg r = c.reg r :=
  (reg_pushWords _ hr).trans (update_of_ne hr _ _)

lemma stacked_enterGate (g : Gate) (vector : Nat) (c : Core) :
  Stacked (enterGate g vector c).mem ((enterGate g vector c).reg .rsp) (pushed g vector c) := by
  have hempty : Stacked (c.set .rsp g.top).mem ((c.set .rsp g.top).reg .rsp) [] := trivial
  have hstack := stacked_pushWords hempty (pushed g vector c)
  rw [append_nil] at hstack
  apply hstack
  unfold pushed
  split <;> simp

lemma rsp_enterGate (g : Gate) (vector : Nat) (c : Core) :
  (enterGate g vector c).reg .rsp = g.top - BitVec.ofNat 64 (8 * (pushed g vector c).length) := by
  have hrsp := rsp_pushWords (c := c.set .rsp g.top) (pushed g vector c).reverse
  have htop : (c.set .rsp g.top).reg .rsp = g.top := by simp [Core.set]
  rw [length_reverse, htop] at hrsp
  exact hrsp

lemma frame_eq (g : Gate) (vector : Nat) (c : Core) :
  (stubWords vector ++ frameRegs.map c.reg).reverse ++ pushed g vector c = frame g vector c := by
  simp only [stubWords, hasErr_eq, pushed, frame, reverse_append, ← map_reverse]
  cases pushesError vector <;> rfl

lemma frame_length (g : Gate) (vector : Nat) (c : Core) : (frame g vector c).length = 16 := rfl

def framed (g : Gate) (vector : Nat) (c : Core) : Core :=
  (stubWords vector ++ frameRegs.map c.reg).foldl Core.pushWord (enterGate g vector c)

lemma stub_pushes (g : Gate) (vector : Nat) (c : Core) :
  execs ((if hasErr vector then [] else [.pushImm 0]) ++ [.pushImm (BitVec.ofNat 64 vector)] ++
    saveFrame) (enterGate g vector c) = framed g vector c := by
  have hvalues : frameRegs.map ((stubWords vector).foldl Core.pushWord (enterGate g vector c)).reg =
      frameRegs.map c.reg := by
    apply map_congr_left
    intro r hr
    have hne : r ≠ .rsp := by
      rintro rfl
      exact absurd hr (by decide)
    exact (reg_pushWords _ hne).trans (reg_enterGate g vector c hne)
  rw [execs_append, execs_pushImm, framed, foldl_append, ← hvalues]
  exact execs_push (show .rsp ∉ frameRegs by decide)

lemma framed_length (g : Gate) (vector : Nat) (c : Core) :
  (stubWords vector ++ frameRegs.map c.reg).length + (pushed g vector c).length = 16 := by
  have hlength := congrArg List.length (frame_eq g vector c)
  rwa [length_append, length_reverse] at hlength

lemma rsp_framed (g : Gate) (vector : Nat) (c : Core) :
  (framed g vector c).reg .rsp = g.top - 128 := by
  have hsum := congrArg (fun n => BitVec.ofNat 64 (8 * n)) (framed_length g vector c)
  rw [framed, rsp_pushWords, rsp_enterGate]
  bv_omega

lemma stacked_framed (g : Gate) (vector : Nat) (c : Core) :
  Stacked (framed g vector c).mem (g.top - 128) (frame g vector c) := by
  have hstack := stacked_pushWords (stacked_enterGate g vector c)
    (stubWords vector ++ frameRegs.map c.reg).reverse
  rw [reverse_reverse, length_reverse, framed_length, frame_eq] at hstack
  rw [← rsp_framed g vector c]
  exact hstack (by omega)

lemma reg_framed (g : Gate) (vector : Nat) (c : Core) (hr : r ≠ .rsp) :
  (framed g vector c).reg r = c.reg r :=
  (reg_pushWords _ hr).trans (reg_enterGate g vector c hr)

lemma vectorEntry_spec (sym : Symbols) (g : Gate) (vector : Nat) (c : Core) :
  (vectorEntry sym vector (enterGate g vector c)).reg .rsp + 8 = g.top - 128 ∧
    Stacked (vectorEntry sym vector (enterGate g vector c)).mem (g.top - 128) (frame g vector c) ∧
    ∀ r ∈ calleeSaved, (vectorEntry sym vector (enterGate g vector c)).reg r = c.reg r := by
  have hentry : vectorEntry sym vector (enterGate g vector c) =
      call (execs [.mov .rsp .rdi, .cld] (framed g vector c)) sym.irqHandlerC sym.afterHandler := by
    rw [vectorEntry, execs_append, stub_pushes]
  have hstack := stacked_framed g vector c
  have hregs := fun r hr => reg_framed g vector c (r := r) hr
  have hrsp := rsp_framed g vector c
  rw [hentry]
  generalize framed g vector c = f at hstack hregs hrsp
  have hsp : (call (execs [.mov .rsp .rdi, .cld] f) sym.irqHandlerC sym.afterHandler).reg .rsp =
      f.reg .rsp - 8 := by
    simp [call, execs, exec, Core.set, Core.pushWord]
  refine ⟨?_, ?_, ?_⟩
  · rw [hsp, BitVec.sub_add_cancel, hrsp]
  · rw [← hrsp] at hstack ⊢
    have hpush := hstack.push sym.afterHandler (by rw [frame_length]; omega)
    have htail := hpush.2
    rw [BitVec.sub_add_cancel] at htail
    simpa [call, execs, exec, Core.set, Core.pushWord] using htail
  intro r hr
  have hne : ∀ r ∈ calleeSaved, r ≠ .rsp ∧ r ≠ .rdi := by decide
  obtain ⟨hrsp', hrdi⟩ := hne r hr
  rw [← hregs r hrsp']
  simp [call, execs, exec, Core.set, Core.pushWord, update_of_ne hrsp',
    update_of_ne hrdi]

/-! ## Going on -/

structure Handled (g : Gate) (vector : Nat) (c h : Core) : Prop where
  rsp : h.reg .rsp = g.top - 128
  frame : Stacked h.mem (g.top - 128) (frame g vector c)
  saved : ∀ r ∈ calleeSaved, h.reg r = c.reg r

lemma handled_of_returns (hreturns : Returns 16 (vectorEntry sym vector (enterGate g vector c)) h) :
  Handled g vector c h := by
  obtain ⟨hrsp, hframe, hsaved⟩ := vectorEntry_spec sym g vector c
  constructor
  · rw [hreturns.rsp, hrsp]
  · apply hframe.congr
    intro k hk
    have hmem := hreturns.mem k hk
    rwa [hrsp] at hmem
  · exact fun r hr => (hreturns.saved r hr).trans (hsaved r hr)

lemma vectorTail_spec (sym : Symbols) (hh : Handled g vector c h) :
  (execs (vectorTail sym) h).mem = h.mem ∧ (execs (vectorTail sym) h).reg .rsp = g.top - 40 ∧
    Stacked h.mem (g.top - 40) [c.rip, c.cs, c.rflags, c.reg .rsp, c.ss] ∧
    (execs (vectorTail sym) h).reg .rax = h.mem sym.gPrend ∧
    (∀ r, r ≠ .rax → r ≠ .rsp → (execs (vectorTail sym) h).reg r = c.reg r) ∧
    zf (execs (vectorTail sym) h).rflags = (h.mem sym.gPrend == 0) := by
  have hframe := hh.frame
  rw [← hh.rsp] at hframe
  obtain ⟨hmem, hrsp, hstack, hin, hout⟩ := execs_pop c.reg
    (show .rsp ∉ frameRegs.reverse by decide) (by decide) hframe
  have htail : execs (vectorTail sym) h = execs [.add 16 .rsp, .loadAt sym.gPrend .rax,
      .test .rax .rax] (execs (frameRegs.reverse.map .pop) h) := execs_append loadFrame _ h
  rw [htail]
  generalize execs (frameRegs.reverse.map .pop) h = q at hmem hrsp hstack hin hout
  have hsp : q.reg .rsp + 16 = g.top - 40 := by
    rw [hrsp, hh.rsp]
    show g.top - 128 + 72 + 16 = g.top - 40
    bv_omega
  refine ⟨hmem, ?_, ?_, ?_, ?_, ?_⟩
  · rw [← hsp]
    simp [execs, exec, Core.set]
  · have hfive := hstack.2.2
    rw [BitVec.add_assoc] at hfive
    rw [← hsp]
    exact hfive
  · simp [execs, exec, Core.set, hmem]
  · intro r hrax hrsp
    have hsplit : r ∈ frameRegs.reverse ∨ r ∈ calleeSaved := by
      cases r <;> first | decide | contradiction
    have hkept : q.reg r = c.reg r := by
      by_cases hr : r ∈ frameRegs.reverse
      · exact hin r hr
      · exact (hout r hr hrsp).trans (hh.saved r (hsplit.resolve_left hr))
    rw [← hkept]
    simp [execs, exec, Core.set, update_of_ne hrax, update_of_ne hrsp]
  · simp [execs, exec, Core.set, hmem]

lemma iretq_spec {rip cs rflags rsp ss : BitVec 64}
  (h : Stacked c.mem (c.reg .rsp) [rip, cs, rflags, rsp, ss]) :
  (iretq c).rip = rip ∧ (iretq c).rflags = rflags ∧ (iretq c).reg = update c.reg .rsp rsp := by
  obtain ⟨hrip, -, hrflags, hrsp, -⟩ := h
  exact ⟨hrip, hrflags, congrArg (update c.reg .rsp) hrsp⟩

lemma update_rsp_eq {x : Reg → BitVec 64} (hrax : x .rax = 0)
  (hx : ∀ r, r ≠ .rax → r ≠ .rsp → x r = c.reg r) :
  update x .rsp (c.reg .rsp) = update c.reg .rax 0 := by
  funext r
  by_cases hr : r = .rsp
  · subst hr
    rw [update_self, update_of_ne (by decide)]
  rw [update_of_ne hr]
  by_cases hr' : r = .rax
  · subst hr'
    rw [update_self, hrax]
  · rw [update_of_ne hr', hx r hr' hr]

lemma vectorExit_direct (hh : Handled g vector c h) (hprend : h.mem sym.gPrend = 0) :
  (vectorExit sym h).rip = c.rip ∧ (vectorExit sym h).rflags = c.rflags ∧
    (vectorExit sym h).reg = update c.reg .rax 0 := by
  obtain ⟨hmem, hrsp, hstack, hrax, hregs, hzf⟩ := vectorTail_spec sym hh
  rw [hprend] at hrax hzf
  have hexit : vectorExit sym h = iretq (execs (vectorTail sym) h) := if_pos hzf
  rw [← hmem, ← hrsp] at hstack
  obtain ⟨hrip, hrflags, hreg⟩ := iretq_spec hstack
  rw [hexit]
  exact ⟨hrip, hrflags, hreg.trans (update_rsp_eq hrax hregs)⟩

lemma vectorExit_preempted (hapart : Apart sym g) (hh : Handled g vector c h)
  (hprend : h.mem sym.gPrend = sym.preemptThunk) :
  (vectorExit sym h).rip = sym.preemptThunk ∧ (vectorExit sym h).rflags = c.rflags ∧
    (vectorExit sym h).reg = update c.reg .rax 0 := by
  obtain ⟨hmem, hrsp, hstack, hrax, hregs, hzf⟩ := vectorTail_spec sym hh
  rw [hprend] at hrax hzf
  have hjump : ¬ zf (execs (vectorTail sym) h).rflags := by
    rw [hzf, beq_iff_eq]
    exact sym.preemptThunk_ne
  have hexit : vectorExit sym h = iretq (execs (vectorRedirect sym) (execs (vectorTail sym) h)) :=
    if_neg hjump
  rw [hexit]
  generalize execs (vectorTail sym) h = q at hmem hrsp hrax hregs
  rw [← hmem, ← hrsp] at hstack
  -- the redirect overwrites the lowest of the five words and then `g_prend`
  have hredirect := hstack.2.push sym.preemptThunk (by simp)
  rw [BitVec.add_sub_cancel, hrsp] at hredirect
  have hframe := hredirect.update 0 hapart
  have hreg : (execs (vectorRedirect sym) q).reg = update q.reg .rax 0 := by
    simp [vectorRedirect, execs, exec, Core.write]
  obtain ⟨hrip, hrflags, hreg'⟩ := iretq_spec (c := execs (vectorRedirect sym) q) (by
    simpa [vectorRedirect, execs, exec, Core.write, hrax, hrsp] using hframe)
  refine ⟨hrip, hrflags, hreg'.trans (update_rsp_eq ?_ ?_)⟩
  · rw [hreg, update_self]
  intro r hr hr'
  rw [hreg, update_of_ne hr, hregs r hr hr']

lemma rsp_thunkEntry (sym : Symbols) (c : Core) : (thunkEntry sym c).reg .rsp = c.reg .rsp - 8 := by
  simp [thunkEntry, call, execs, exec, Core.write, Core.pushWord]

lemma rsp_thunkExit (sym : Symbols) (c : Core) : (thunkExit sym c).reg .rsp = c.reg .rsp + 8 := by
  simp [thunkExit, execs, exec, Core.write, Core.set]

/-- An interrupt is invisible exactly when no preemption was armed and RAX was zero. -/
theorem interrupt_invisible_iff {sym : Symbols} {g : Gate} {vector : Nat} {c c' : Core}
  {armed : Bool} (hapart : Apart sym g) (hresumes : Resumes sym g vector c armed c') :
  Unchanged c c' ↔ armed = false ∧ c.reg .rax = 0 := by
  cases hresumes with
  | direct hreturns hprend =>
    obtain ⟨hrip, hrflags, hreg⟩ := vectorExit_direct (handled_of_returns hreturns) hprend
    constructor
    · intro hunchanged
      have hrax := congrFun (hunchanged.2.1.symm.trans hreg) .rax
      exact ⟨rfl, hrax⟩
    rintro ⟨-, hrax⟩
    rw [← hrax, Function.update_eq_self] at hreg
    exact ⟨hrip, hreg, hrflags⟩
  | @preempted h y hreturns hprend hyield =>
    obtain ⟨-, -, hreg⟩ := vectorExit_preempted hapart (handled_of_returns hreturns) hprend
    apply iff_of_false _ (fun h => nomatch h.1)
    -- the thunk returns through a word of the interrupted stack
    intro hunchanged
    have hrsp : (thunkExit sym y).reg .rsp = c.reg .rsp + 8 := by
      rw [rsp_thunkExit, hyield.rsp, rsp_thunkEntry, hreg, BitVec.sub_add_cancel,
        update_of_ne (by decide)]
    rw [hunchanged.2.1] at hrsp
    bv_omega

/-! ## Arming -/

/-- What `irq_handler_c` leaves in `g_prend`: `frame[9]` is the vector, and `frame[11]` is meant
to be the interrupted code segment. -/
def irqHandlerPrend (sym : Symbols) (m : BitVec 64 → BitVec 64) (frame : BitVec 64)
  (shouldPreempt : Bool) : BitVec 64 :=
  if m (frame + 72) = 32 ∧ m (frame + 88) = 0x08 ∧ shouldPreempt ∧ m sym.gInThunk = 0 ∧
      m sym.gPrend = 0 then sym.preemptThunk
  else m sym.gPrend

variable {m : BitVec 64 → BitVec 64} {a : BitVec 64} {shouldPreempt : Bool}

section
variable (hframe : Stacked m a (frame g vector c))
include hframe

lemma armed_iff : irqHandlerPrend sym m a shouldPreempt ≠ m sym.gPrend ↔
    BitVec.ofNat 64 vector = 32 ∧ c.rip = 0x08 ∧ shouldPreempt ∧ m sym.gInThunk = 0 ∧
      m sym.gPrend = 0 := by
  obtain ⟨-, -, -, -, -, -, -, -, -, hvector, -, hrip, -⟩ := hframe
  simp only [BitVec.add_assoc] at hvector hrip
  unfold irqHandlerPrend
  rw [show m (a + 72) = BitVec.ofNat 64 vector from hvector, show m (a + 88) = c.rip from hrip]
  split
  · next harmed =>
    rw [harmed.2.2.2.2]
    exact iff_of_true sym.preemptThunk_ne ⟨harmed.1, harmed.2.1, harmed.2.2.1, harmed.2.2.2.1, rfl⟩
  · next hnot => exact iff_of_false (fun h => h rfl) hnot

end

/-- A timer interrupt arms preemption exactly for code of the kernel segment when CS is 8 exactly
if RIP is, or nothing is to be armed anyway. -/
theorem preemption_armed_iff {sym : Symbols} {g : Gate} {c : Core} {m : BitVec 64 → BitVec 64}
  {a : BitVec 64} {shouldPreempt : Bool} (hframe : Stacked m a (frame g 32 c)) :
  (irqHandlerPrend sym m a shouldPreempt ≠ m sym.gPrend ↔
      c.cs = 0x08 ∧ shouldPreempt ∧ m sym.gInThunk = 0 ∧ m sym.gPrend = 0) ↔
    (shouldPreempt ∧ m sym.gInThunk = 0 ∧ m sym.gPrend = 0 → (c.rip = 0x08 ↔ c.cs = 0x08)) := by
  rw [armed_iff hframe, and_iff_right (show BitVec.ofNat 64 32 = 32 from rfl)]
  exact and_congr_left_iff

lemma returns_ret (frame : Nat) (c : Core) : Returns frame c (ret c) where
  rip := rfl
  rsp := rsp_ret c
  saved r hr := reg_ret (by rintro rfl; exact absurd hr (by decide))
  mem _ _ := rfl

lemma returns_arm {frame : Nat} (addr w : BitVec 64)
  (haddr : ∀ k < frame, c.reg .rsp + 8 + BitVec.ofNat 64 (8 * k) ≠ addr) :
  Returns frame c ((ret c).write addr w) where
  rip := rfl
  rsp := rsp_ret c
  saved r hr := reg_ret (by rintro rfl; exact absurd hr (by decide))
  mem k hk := by
    show update c.mem addr w _ = _
    rw [update_of_ne (haddr k hk)]

def lowSymbols : Symbols where
  irqHandlerC := 0x1000
  afterHandler := 0x1100
  gPrend := 0x2000
  gInThunk := 0x2008
  preemptSv := 0x2010
  preemptThunk := 0x1200
  schedYield := 0x1300
  afterYield := 0x1400
  preemptThunk_ne := by decide

def lowGate : Gate where
  stack := 0x8000
  ss := 0x10
  error := 0

lemma lowSymbols_apart : Apart lowSymbols lowGate := by
  unfold Apart
  decide +kernel

def interrupted (rax : BitVec 64) : Core where
  reg r := if r = .rax then rax else if r = .rsp then 0x8000 else 0
  rip := 0x3000
  rflags := 0x202
  cs := 0x08
  ss := 0x10
  mem _ := 0

def tickMem : BitVec 64 → BitVec 64 :=
  (vectorEntry lowSymbols 32 (enterGate lowGate 32 (interrupted 0))).mem

theorem preemption_armed_iff_idle :
  irqHandlerPrend lowSymbols tickMem (lowGate.top - 128) false ≠ tickMem lowSymbols.gPrend ↔
    (interrupted 0).cs = 0x08 ∧ false ∧ tickMem lowSymbols.gInThunk = 0 ∧
      tickMem lowSymbols.gPrend = 0 :=
  (preemption_armed_iff (vectorEntry_spec lowSymbols lowGate 32 (interrupted 0)).2.1).mpr
    fun h => nomatch h.1

/-- Kernel code at `0x3000` is due for preemption, and none is armed. -/
theorem kernel_code_not_preempted :
  (interrupted 0).cs = 0x08 ∧ tickMem lowSymbols.gInThunk = 0 ∧ tickMem lowSymbols.gPrend = 0 ∧
    irqHandlerPrend lowSymbols tickMem (lowGate.top - 128) true = tickMem lowSymbols.gPrend := by
  decide +kernel

theorem interrupt_invisible_iff_idle : Unchanged (interrupted 0) (vectorExit lowSymbols
    (ret (vectorEntry lowSymbols 32 (enterGate lowGate 32 (interrupted 0))))) :=
  (interrupt_invisible_iff lowSymbols_apart
    (.direct (returns_ret 16 _) (by decide +kernel))).mpr ⟨rfl, rfl⟩

/-- A timer interrupt loses the value of RAX; an armed one also takes a word off the
interrupted stack. -/
theorem interrupt_changes_registers :
  (∃ c', Resumes lowSymbols lowGate 32 (interrupted 1) false c' ∧ c'.reg .rax = 0) ∧
    ∃ c', Resumes lowSymbols lowGate 32 (interrupted 1) true c' ∧
      c'.reg .rsp = (interrupted 1).reg .rsp + 8 := by
  constructor
  · refine ⟨_, .direct (returns_ret 16 _) (by decide +kernel), by decide +kernel⟩
  refine ⟨_, .preempted (returns_arm 0x2000 0x1200 ?_) (by decide +kernel) (returns_ret 0 _),
    by decide +kernel⟩
  decide +kernel

end Aeos.X86
