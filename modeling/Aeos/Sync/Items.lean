/-
# Producer and consumer

The semaphore of `kernel/sync.c`, and the two tasks of `boot/aarch64/kernel.c` that pass five items
through one word. Which of them makes the next access is left open; no other task touches any of it.
-/

import Aeos.Sync.Mutex

namespace Aeos.Sync

open Lib List

structure Semaphore where
  count : Int
  wakeups : UInt32

def semInit (initial : Int) : Semaphore := ⟨initial, 0⟩

def semTrywait (s : Semaphore) : Bool × Semaphore :=
  if 0 < s.count then (true, { s with count := s.count - 1 }) else (false, s)

def semPost (s : Semaphore) : Semaphore := ⟨s.count + 1, s.wakeups + 1⟩

/-- The next access of `task_producer`. -/
inductive ProducerAt
  | lock
  | store
  | unlock
  | post
  deriving DecidableEq

/-- The next access of `task_consumer`. -/
inductive ConsumerAt
  | wait
  | lock
  | load
  | unlock
  deriving DecidableEq

structure Demo where
  dataLock : Mutex
  items : Semaphore
  sharedItem : Nat
  producer : ProducerAt
  i : Nat
  consumer : ConsumerAt
  v : Nat
  /-- The values printed; as many as turns the consumer has made. -/
  consumed : List Nat

/-- One access, or one turn of a waiting loop, of the task in slot `me`. -/
def taskProducer (me : Nat) (s : Demo) : Demo :=
  if 5 < s.i then s
  else
    match s.producer with
    | .lock =>
      let tried := mutexTrylock s.dataLock (some me)
      { s with dataLock := tried.2, producer := if tried.1 then .store else .lock }
    | .store => { s with sharedItem := s.i, producer := .unlock }
    | .unlock => { s with dataLock := mutexUnlock s.dataLock (some me), producer := .post }
    | .post => { s with items := semPost s.items, i := s.i + 1, producer := .lock }

def taskConsumer (me : Nat) (s : Demo) : Demo :=
  if 5 ≤ s.consumed.length then s
  else
    match s.consumer with
    | .wait =>
      let tried := semTrywait s.items
      { s with items := tried.2, consumer := if tried.1 then .lock else .wait }
    | .lock =>
      let tried := mutexTrylock s.dataLock (some me)
      { s with dataLock := tried.2, consumer := if tried.1 then .load else .lock }
    | .load => { s with v := s.sharedItem, consumer := .unlock }
    | .unlock =>
      { s with
        dataLock := mutexUnlock s.dataLock (some me)
        consumed := s.consumed ++ [s.v]
        consumer := .wait }

inductive Turn
  | producer
  | consumer

/-- Every order of accesses, with the tasks in slots `p` and `c`. -/
def demo (p c : Nat) : Machine Demo Turn where
  init s := s = ⟨mutexInit, semInit 0, 0, .lock, 1, .wait, 0, []⟩
  enabled _ _ := True
  step s
    | .producer => taskProducer p s
    | .consumer => taskConsumer c s

namespace Demo

variable (s : Demo)

/-- The accesses made, failed tries aside. -/
def made : Nat := 4 * s.i + s.producer.ctorIdx + (4 * s.consumed.length + s.consumer.ctorIdx)

/-- The items that the semaphore has let through. -/
def taken : Nat := s.consumed.length + if s.consumer = .wait then 0 else 1

abbrev Storing : Prop := s.producer = .store ∨ s.producer = .unlock

abbrev Loading : Prop := s.consumer = .load ∨ s.consumer = .unlock

end Demo

structure Paced (p c : Nat) (s : Demo) : Prop where
  turn : 1 ≤ s.i ∧ s.i ≤ 6 ∧ (s.i = 6 → s.producer = .lock)
  item : s.sharedItem + (if s.producer = .lock ∨ s.producer = .store then 1 else 0) = s.i
  count : 0 ≤ s.items.count ∧ s.items.count + s.taken + 1 = s.i
  owner : s.dataLock.owner = if s.Storing then some p else if s.Loading then some c else none
  apart : ¬ (s.Storing ∧ s.Loading)
  loaded : s.consumer = .unlock → s.consumed.length < s.v ∧ s.v ≤ s.sharedItem ∧
    ∀ u ∈ s.consumed, u ≤ s.v
  past : ∀ u ∈ s.consumed, u ≤ s.sharedItem
  early : ∀ k (u : Nat), s.consumed[k]? = some u → k < u
  sorted : s.consumed.Pairwise (· ≤ ·)

namespace Paced

variable {p c : Nat} {s : Demo}

/-- Step lemma, one case for each access. A load finds an item no older than the one the semaphore
let through: as many have been posted. -/
lemma step (h : Paced p c s) (hpc : p ≠ c) (t : Turn) : Paced p c ((demo p c).step s t) := by
  cases t with
  | producer =>
    show Paced p c (taskProducer p s)
    unfold taskProducer
    split_ifs
    · exact h
    cases h
    split
    · constructor <;> grind [mutexTrylock, Demo.taken]
    · constructor <;> grind [Demo.taken]
    · constructor <;> grind [mutexUnlock, Demo.taken]
    · constructor <;> grind [semPost, Demo.taken]
  | consumer =>
    show Paced p c (taskConsumer c s)
    unfold taskConsumer
    split_ifs
    · exact h
    cases h
    split
    · constructor <;> grind [semTrywait, Demo.taken]
    · constructor <;> grind [mutexTrylock, Demo.taken]
    · constructor <;> grind [Demo.taken]
    · constructor <;> grind [mutexUnlock, Demo.taken]

lemma of_reachable (hpc : p ≠ c) (hreach : (demo p c).Reachable s) : Paced p c s := by
  refine hreach.invariant (Paced p c) ?_ fun s t h _ => h.step hpc t
  rintro s rfl
  constructor <;> simp [mutexInit, semInit, Demo.taken, Demo.Storing, Demo.Loading]

/-- A task that has to wait waits for one that need not. -/
lemma progress (h : Paced p c s) (hopen : s.i = 6 → s.consumed.length ≠ 5) :
  ∃ t, s.made < ((demo p c).step s t).made := by
  cases h
  by_cases hblocked : s.i = 6 ∨ s.producer = .lock ∧ s.dataLock.owner = some c
  · refine ⟨.consumer, ?_⟩
    show s.made < (taskConsumer c s).made
    rw [taskConsumer, if_neg (by grind [Demo.taken])]
    split <;> grind [Demo.made, ConsumerAt.ctorIdx, Demo.taken, semTrywait, mutexTrylock]
  · refine ⟨.producer, ?_⟩
    show s.made < (taskProducer p s).made
    rw [taskProducer, if_neg (by omega)]
    split <;> grind [Demo.made, ProducerAt.ctorIdx, mutexTrylock]

end Paced

/-- In every order of the accesses the values printed never fall, and the `k`th is at least `k`: no
item is taken before it is made. The tasks are not inside the mutex at once, and until both have
made their five turns one of them gets ahead. -/
theorem items_passed_in_order {p c : Nat} {s : Demo} (hpc : p ≠ c)
  (hreach : (demo p c).Reachable s) : s.consumed.Pairwise (· ≤ ·) ∧
  (∀ k (u : Nat), s.consumed[k]? = some u → k < u ∧ u ≤ 5) ∧ ¬ (s.Storing ∧ s.Loading) ∧
  (s.i = 6 ∧ s.consumed.length = 5 ∨ ∃ t, s.made < ((demo p c).step s t).made) := by
  have h := Paced.of_reachable hpc hreach
  refine ⟨h.sorted, fun k u hu => ⟨h.early k u hu, ?_⟩, h.apart, ?_⟩
  · have hpast := h.past u (mem_of_getElem? hu)
    grind [h.item, h.turn]
  · by_cases hdone : s.i = 6 ∧ s.consumed.length = 5
    · exact .inl hdone
    · exact .inr (h.progress fun hi hlen => hdone ⟨hi, hlen⟩)

/-- Two items are made before the first is taken. -/
theorem items_passed_in_order_late : ∃ s : Demo, s.consumed = [2] ∧
  s.consumed.Pairwise (· ≤ ·) := by
  have hrun := (demo 1 2).run_foldl (fun _ _ => trivial)
    ⟨mutexInit, semInit 0, 0, .lock, 1, .wait, 0, []⟩
    (replicate 8 .producer ++ replicate 4 .consumer)
  exact ⟨_, rfl, (items_passed_in_order (by decide) ⟨_, _, rfl, hrun⟩).1⟩

end Aeos.Sync
