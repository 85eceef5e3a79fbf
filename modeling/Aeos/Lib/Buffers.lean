/-
# Programs that keep a log

A program over a state, run together with the list of what it asked of somebody
else. Erasing the log gives the plain program back. `Logs P` says that every entry
of the log is in `P`; it is compositional and exact.
-/

import Mathlib.Data.List.Basic
import Mathlib.Data.List.GetD

namespace Aeos.Lib

/-- What a run comes to: its result, the state it leaves, and what it asked for on the
way, in order. -/
structure Logged (S R α : Type) where
  value : α
  state : S
  log : List R

/-- A program over `S` that asks for `R`s. -/
def LogM (S R α : Type) : Type := S → Logged S R α

namespace LogM

variable {S R α β : Type}

instance : Monad (LogM S R) where
  pure a := fun s => ⟨a, s, []⟩
  bind x f := fun s =>
    let first := x s
    let second := f first.value first.state
    ⟨second.value, second.state, first.log ++ second.log⟩

def get : LogM S R S := fun s => ⟨s, s, []⟩

/-- A change of the state that asks for nothing. -/
def modify (f : S → S) : LogM S R Unit := fun s => ⟨(), f s, []⟩

def ask (r : S → R) (f : S → α × S) : LogM S R α := fun s => ⟨(f s).1, (f s).2, [r s]⟩

/-- The run without its log. -/
def erase (x : LogM S R α) (s : S) : α × S := ((x s).value, (x s).state)

section
variable (s : S)

@[simp]
lemma erase_pure (a : α) : (pure a : LogM S R α).erase s = (a, s) := rfl

@[simp]
lemma erase_bind (x : LogM S R α) (f : α → LogM S R β) :
  (x >>= f).erase s = (f (x.erase s).1).erase (x.erase s).2 := rfl

lemma erase_get_bind (f : S → LogM S R α) : (get >>= f).erase s = (f s).erase s := rfl

@[simp]
lemma erase_modify (f : S → S) : (modify f : LogM S R Unit).erase s = ((), f s) := rfl

@[simp]
lemma erase_ask (r : S → R) (f : S → α × S) : (ask r f).erase s = f s := rfl

end

/-- Everything the run asks for is in `P`. -/
def Logs (P : R → Prop) (x : LogM S R α) (s : S) : Prop := ∀ r ∈ (x s).log, P r

section
variable {P : R → Prop} {s : S}

@[simp]
lemma logs_pure (a : α) : Logs P (pure a : LogM S R α) s := by
  intro r hr
  cases hr

@[simp]
lemma logs_bind (x : LogM S R α) (f : α → LogM S R β) :
  Logs P (x >>= f) s ↔ Logs P x s ∧ Logs P (f (x.erase s).1) (x.erase s).2 := by
  show (∀ r ∈ (x s).log ++ (f (x s).value (x s).state).log, P r) ↔ _
  simp only [List.mem_append, or_imp, forall_and]
  rfl

lemma logs_get_bind (f : S → LogM S R α) : Logs P (get >>= f) s ↔ Logs P (f s) s := Iff.rfl

@[simp]
lemma logs_modify (f : S → S) : Logs P (modify f : LogM S R Unit) s := by
  intro r hr
  cases hr

@[simp]
lemma logs_ask (r : S → R) (f : S → α × S) : Logs P (ask r f) s ↔ P (r s) := by
  show (∀ r' ∈ [r s], P r') ↔ _
  simp

end
end LogM

/-! ## Programs over several byte buffers -/

structure Ptr (R : Type) where
  buffer : R
  offset : Nat

namespace Ptr

variable {R : Type}

def add (p : Ptr R) (i : Nat) : Ptr R := ⟨p.buffer, p.offset + i⟩

end Ptr

inductive Act (R : Type)
  | read (buffer : R) (offset : Nat)
  | write (buffer : R) (offset : Nat)
  | send (length : Nat)
  deriving DecidableEq

/-- The act stays inside the buffers, and within what the device takes. -/
def Act.Within {R : Type} (capacity : R → Nat) (limit : Nat) : Act R → Prop
  | .read r i => i < capacity r
  | .write r i => i < capacity r
  | .send n => n ≤ limit

/-- The buffers, and the variables that are not buffers. -/
structure Store (R B V : Type) where
  bytes : R → Nat → B
  vars : V

namespace Store

variable {R B V : Type} [DecidableEq R]

/-- The store with the bytes put at `p`. -/
def put (s : Store R B V) (p : Ptr R) (xs : List B) : Store R B V :=
  { s with
    bytes := Function.update s.bytes p.buffer fun a =>
      if p.offset ≤ a then xs.getD (a - p.offset) (s.bytes p.buffer a)
      else s.bytes p.buffer a }

end Store

/-- A program over buffers. -/
abbrev Buffered (R B V α : Type) : Type := LogM (Store R B V) (Act R) α

namespace Buffered

open LogM Store
variable {R B V : Type}

def load (p : Ptr R) : Buffered R B V B :=
  ask (fun _ => .read p.buffer p.offset) fun s => (s.bytes p.buffer p.offset, s)

def loads (p : Ptr R) : Nat → Buffered R B V (List B)
  | 0 => pure []
  | n + 1 => do
      let b ← load p
      let rest ← loads (p.add 1) n
      pure (b :: rest)

/-- Compare two slices up to the first difference. -/
def same [DecidableEq B] (p q : Ptr R) : Nat → Buffered R B V Bool
  | 0 => pure true
  | n + 1 => do
      let a ← load p
      let b ← load q
      if a = b then same (p.add 1) (q.add 1) n else pure false

section
variable [DecidableEq R]

def store (p : Ptr R) (b : B) : Buffered R B V Unit :=
  ask (fun _ => .write p.buffer p.offset) fun s => ((), s.put p [b])

def stores (p : Ptr R) : List B → Buffered R B V Unit
  | [] => pure ()
  | b :: rest => do
      store p b
      stores (p.add 1) rest

def copy (dst src : Ptr R) : Nat → Buffered R B V Unit
  | 0 => pure ()
  | n + 1 => do
      let b ← load src
      store dst b
      copy (dst.add 1) (src.add 1) n

end

/-! ## Staying inside the buffers -/

/-- Whatever the store, the program stays inside its buffers and sends no more than the limit at a
time. -/
def Bounded {α : Type} (capacity : R → Nat) (limit : Nat) (x : Buffered R B V α) : Prop :=
  ∀ s, Logs (Act.Within capacity limit) x s

section
variable {α β : Type} {capacity : R → Nat} {limit : Nat}

lemma bounded_pure (a : α) : Bounded capacity limit (pure a : Buffered R B V α) :=
  fun _ => logs_pure a

lemma bounded_bind {x : Buffered R B V α} {f : α → Buffered R B V β}
  (hx : Bounded capacity limit x) (hf : ∀ a, Bounded capacity limit (f a)) :
  Bounded capacity limit (x >>= f) := by
  intro s
  rw [logs_bind]
  exact ⟨hx s, hf _ _⟩

lemma bounded_ite {c : Prop} [Decidable c] {x y : Buffered R B V α}
  (hx : c → Bounded capacity limit x) (hy : ¬ c → Bounded capacity limit y) :
  Bounded capacity limit (if c then x else y) := by
  by_cases hc : c
  · rw [if_pos hc]
    exact hx hc
  rw [if_neg hc]
  exact hy hc

lemma bounded_get : Bounded capacity limit (get : Buffered R B V (Store R B V)) := by
  intro s a ha
  cases ha

lemma bounded_modify (f : Store R B V → Store R B V) :
  Bounded capacity limit (modify f : Buffered R B V Unit) :=
  fun _ => logs_modify f

variable {p : Ptr R} {n : Nat}

lemma bounded_load (hp : p.offset < capacity p.buffer) :
  Bounded capacity limit (load p : Buffered R B V B) := by
  intro s
  rw [load, logs_ask]
  exact hp

section
variable (hp : p.offset + n ≤ capacity p.buffer)
include hp

lemma bounded_loads : Bounded capacity limit (loads p n : Buffered R B V (List B)) := by
  induction n generalizing p with
  | zero => exact bounded_pure []
  | succ n ih =>
    apply bounded_bind (bounded_load (by omega))
    intro b
    apply bounded_bind (ih (by simp only [Ptr.add]; omega))
    intro rest
    exact bounded_pure (b :: rest)

lemma bounded_same [DecidableEq B] {q : Ptr R} (hq : q.offset + n ≤ capacity q.buffer) :
  Bounded capacity limit (same p q n : Buffered R B V Bool) := by
  induction n generalizing p q with
  | zero => exact bounded_pure true
  | succ n ih =>
    apply bounded_bind (bounded_load (by omega))
    intro a
    apply bounded_bind (bounded_load (by omega))
    intro b
    apply bounded_ite
    · intro _
      exact ih (by simp only [Ptr.add]; omega) (by simp only [Ptr.add]; omega)
    intro _
    exact bounded_pure false

end

variable [DecidableEq R]

lemma bounded_store {b : B} (hp : p.offset < capacity p.buffer) :
  Bounded capacity limit (store p b : Buffered R B V Unit) := by
  intro s
  rw [store, logs_ask]
  exact hp

lemma bounded_stores {xs : List B} (hp : p.offset + xs.length ≤ capacity p.buffer) :
  Bounded capacity limit (stores p xs : Buffered R B V Unit) := by
  induction xs generalizing p with
  | nil => exact bounded_pure ()
  | cons x xs ih =>
    rw [List.length_cons] at hp
    apply bounded_bind (bounded_store (by omega))
    intro _
    exact ih (by simp only [Ptr.add]; omega)

lemma bounded_copy {dst src : Ptr R} (hdst : dst.offset + n ≤ capacity dst.buffer)
  (hsrc : src.offset + n ≤ capacity src.buffer) :
  Bounded capacity limit (copy dst src n : Buffered R B V Unit) := by
  induction n generalizing dst src with
  | zero => exact bounded_pure ()
  | succ n ih =>
    apply bounded_bind (bounded_load (by omega))
    intro b
    apply bounded_bind (bounded_store (by omega))
    intro _
    exact ih (by simp only [Ptr.add]; omega) (by simp only [Ptr.add]; omega)

end
end Buffered
end Aeos.Lib
