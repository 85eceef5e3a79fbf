/-
# The job queue of the secondary cores

`smp_submit` and `job_pop` of `boot/aarch64/smp.c`: a ring of sixteen cells with one producer,
the boot core, and any number of consumers. Both hold the queue's lock while they look at the
ring, so each is one step; the producer adds to the job counter when it has given the lock back,
which is another step.
-/

import Aeos.Lib.Machine
import Aeos.Lib.Ring

namespace Aeos.Smp

open Lib List

def jobQueue : Nat := 16

structure Job where
  fn : BitVec 64
  arg : BitVec 64
  deriving DecidableEq

structure Queue where
  jobq : Nat → Job
  qHead : Nat
  qTail : Nat

/-- `smp_submit` under the lock: whether there was room. -/
def smpSubmit (q : Queue) (job : Job) : Bool × Queue :=
  let next := (q.qTail + 1) % jobQueue
  if next = q.qHead then (false, q)
  else (true, { q with jobq := Function.update q.jobq q.qTail job, qTail := next })

def jobPop (q : Queue) : Option Job × Queue :=
  if q.qHead ≠ q.qTail then
    (some (q.jobq q.qHead), { q with qHead := (q.qHead + 1) % jobQueue })
  else (none, q)

namespace Queue

structure Valid (q : Queue) : Prop where
  head : q.qHead < jobQueue
  tail : q.qTail < jobQueue

/-- The jobs that have not been popped, oldest first. -/
def waiting (q : Queue) : List Job :=
  ringList jobQueue q.jobq q.qHead (ringCount jobQueue q.qHead q.qTail)

variable {q : Queue}

lemma length_waiting_lt (q : Queue) : q.waiting.length < jobQueue := by
  rw [waiting, length_ringList]
  exact ringCount_lt (by decide)

end Queue

variable {q : Queue}

lemma smpSubmit_refused (h : q.Valid) (job : Job) :
  (smpSubmit q job).1 = false ↔ q.waiting.length = jobQueue - 1 := by
  rw [Queue.waiting, length_ringList, ← ringCount_full h.head h.tail]
  by_cases hfull : (q.qTail + 1) % jobQueue = q.qHead
  · have hcode : (smpSubmit q job).1 = false := congrArg Prod.fst (if_pos hfull)
    exact iff_of_true hcode hfull
  have hcode : (smpSubmit q job).1 = true := congrArg Prod.fst (if_neg hfull)
  rw [hcode]
  exact iff_of_false Bool.noConfusion hfull

lemma smpSubmit_cases (h : q.Valid) (job : Job) : smpSubmit q job = (false, q) ∨
    (smpSubmit q job).1 = true ∧ (smpSubmit q job).2.Valid ∧
      (smpSubmit q job).2.waiting = q.waiting ++ [job] := by
  by_cases hfull : (q.qTail + 1) % jobQueue = q.qHead
  · left
    exact if_pos hfull
  right
  have hcode : smpSubmit q job =
      (true, ⟨Function.update q.jobq q.qTail job, q.qHead, (q.qTail + 1) % jobQueue⟩) :=
    if_neg hfull
  rw [hcode]
  refine ⟨rfl, ⟨h.head, Nat.mod_lt _ (by decide)⟩, ?_⟩
  rw [Queue.waiting, Queue.waiting, ringCount_push h.head h.tail hfull]
  exact ringList_push (.of_lt h.head h.tail) (ringCount_lt (by decide)) job

lemma jobPop_cases (h : q.Valid) : q.waiting = [] ∧ jobPop q = (none, q) ∨
    ∃ job, (jobPop q).1 = some job ∧ (jobPop q).2.Valid ∧
      q.waiting = job :: (jobPop q).2.waiting := by
  by_cases hsome : q.qHead ≠ q.qTail
  · right
    have hcode : jobPop q =
        (some (q.jobq q.qHead), { q with qHead := (q.qHead + 1) % jobQueue }) := if_pos hsome
    rw [hcode]
    refine ⟨q.jobq q.qHead, rfl, ⟨Nat.mod_lt _ (by decide), h.tail⟩, ?_⟩
    have hcount := mt (ringCount_eq_zero h.head h.tail).mp hsome
    rw [Queue.waiting, Queue.waiting, ringCount_pop h.head h.tail hsome]
    exact ringList_pop (.of_lt h.head h.tail) hcount
  left
  have hcount := (ringCount_eq_zero h.head h.tail).mpr (not_not.mp hsome)
  refine ⟨?_, if_neg hsome⟩
  rw [← length_eq_zero_iff, Queue.waiting, length_ringList, hcount]

/-- The queue, the counter, whether the boot core is on its way from the lock to the counter, and
the jobs accepted and popped, each with the core that has it. -/
structure World where
  queue : Queue
  apJobCount : Nat
  counting : Bool
  accepted : List Job
  popped : List (Nat × Job)

inductive Event
  | submit (job : Job)
  /-- `ap_job_count++` -/
  | count
  | pop (core : Nat)

def World.react (w : World) : Event → World
  | .submit job =>
    match smpSubmit w.queue job with
    | (false, q) => { w with queue := q }
    | (true, q) => { w with queue := q, counting := true, accepted := w.accepted ++ [job] }
  | .count => { w with apJobCount := (w.apJobCount + 1) % 2 ^ 64, counting := false }
  | .pop core =>
    match jobPop w.queue with
    | (none, q) => { w with queue := q }
    | (some job, q) => { w with queue := q, popped := w.popped ++ [(core, job)] }

/-- Every interleaving from boot on. The boot core counts a job before it submits another. -/
def machine : Machine World Event where
  init w := w.queue.qHead = 0 ∧ w.queue.qTail = 0 ∧ w.apJobCount = 0 ∧ w.counting = false ∧
    w.accepted = [] ∧ w.popped = []
  enabled w
    | .submit _ => w.counting = false
    | .count => w.counting = true
    | .pop _ => True
  step := World.react

def World.poppedJobs (w : World) : List Job := w.popped.map Prod.snd

/-- Jobs accepted that the counter does not show yet. -/
def World.uncounted (w : World) : Nat := if w.counting then 1 else 0

structure Inv (w : World) : Prop where
  valid : w.queue.Valid
  jobs : w.poppedJobs ++ w.queue.waiting = w.accepted
  counter : w.apJobCount < 2 ^ 64 ∧
    (w.apJobCount + w.uncounted) % 2 ^ 64 = w.accepted.length % 2 ^ 64

namespace Inv

variable {w : World}

lemma start (hinit : machine.init w) : Inv w := by
  obtain ⟨hhead, htail, hcount, hcounting, haccepted, hpopped⟩ := hinit
  have hvalid : w.queue.Valid := ⟨by rw [hhead]; decide, by rw [htail]; decide⟩
  have hempty : w.queue.waiting = [] := by
    rw [← length_eq_zero_iff, Queue.waiting, length_ringList,
      ringCount_eq_zero hvalid.head hvalid.tail, hhead, htail]
  refine ⟨hvalid, ?_, ?_⟩
  · rw [hempty, haccepted, World.poppedJobs, hpopped]
    rfl
  rw [hcount, haccepted, World.uncounted, hcounting]
  decide

section
variable (h : Inv w)
include h

lemma submit (hidle : w.counting = false) (job : Job) : Inv (w.react (.submit job)) := by
  have hcounter := h.counter
  rw [World.uncounted, hidle] at hcounter
  rw [World.react]
  rcases smpSubmit_cases h.valid job with hfull | ⟨hroom, hvalid, hwaiting⟩
  · rw [hfull]
    exact h
  generalize smpSubmit w.queue job = r at hroom hvalid hwaiting
  obtain ⟨accepted, q⟩ := r
  obtain rfl : accepted = true := hroom
  refine ⟨hvalid, ?_, hcounter.1, ?_⟩
  · show w.poppedJobs ++ q.waiting = w.accepted ++ [job]
    rw [← h.jobs, append_assoc, ← hwaiting]
  show (w.apJobCount + 1) % 2 ^ 64 = (w.accepted ++ [job]).length % 2 ^ 64
  have hsame : w.apJobCount % 2 ^ 64 = w.accepted.length % 2 ^ 64 := hcounter.2
  rw [length_append, length_singleton, Nat.add_mod, hsame, ← Nat.add_mod]

lemma count (hcounting : w.counting = true) : Inv (w.react .count) := by
  refine ⟨h.valid, h.jobs, Nat.mod_lt _ (by decide), ?_⟩
  have hcounter := h.counter.2
  rw [World.uncounted, hcounting] at hcounter
  show ((w.apJobCount + 1) % 2 ^ 64 + 0) % 2 ^ 64 = w.accepted.length % 2 ^ 64
  rw [Nat.add_zero, Nat.mod_mod]
  exact hcounter

lemma pop (core : Nat) : Inv (w.react (.pop core)) := by
  rw [World.react]
  rcases jobPop_cases h.valid with ⟨_, hnone⟩ | ⟨job, hsome, hvalid, hwaiting⟩
  · rw [hnone]
    exact h
  generalize jobPop w.queue = r at hsome hvalid hwaiting
  obtain ⟨popped, q⟩ := r
  obtain rfl : popped = some job := hsome
  refine ⟨hvalid, ?_, h.counter⟩
  show (w.popped ++ [(core, job)]).map Prod.snd ++ q.waiting = w.accepted
  rw [map_append, map_singleton, append_assoc, singleton_append,
    ← hwaiting]
  exact h.jobs

lemma step {e : Event} (henabled : machine.enabled w e) : Inv (w.react e) := by
  cases e with
  | submit job => exact h.submit henabled job
  | count => exact h.count henabled
  | pop core => exact h.pop core

end

lemma of_reachable (hw : machine.Reachable w) : Inv w :=
  hw.invariant Inv (fun _ hinit => start hinit) fun _ _ h henabled => h.step henabled

lemma counter_eq (h : Inv w) (hidle : w.counting = false) :
  w.apJobCount = w.accepted.length % 2 ^ 64 := by
  have hcounter := h.counter.2
  rw [World.uncounted, hidle] at hcounter
  rw [← hcounter]
  exact (Nat.mod_eq_of_lt h.counter.1).symm

end Inv

/-! ## Draining -/

def Event.isPop : Event → Bool
  | .pop _ => true
  | _ => false

structure Grows (w v : World) (pops : Nat) : Prop where
  accepted : w.accepted <+: v.accepted
  popped : w.poppedJobs <+: v.poppedJobs
  taken : min w.accepted.length (w.poppedJobs.length + pops) ≤ v.poppedJobs.length

lemma react_grows {w : World} (h : Inv w) (e : Event) :
  Grows w (w.react e) (if e.isPop then 1 else 0) := by
  cases e with
  | submit job =>
    rw [World.react]
    split
    · exact ⟨prefix_rfl, prefix_rfl, min_le_right _ _⟩
    · exact ⟨prefix_append _ _, prefix_rfl, min_le_right _ _⟩
  | count => exact ⟨prefix_rfl, prefix_rfl, min_le_right _ _⟩
  | pop core =>
    rw [World.react]
    rcases jobPop_cases h.valid with ⟨hempty, hnone⟩ | ⟨job, hsome, -, -⟩
    · -- Nothing is waiting, so everything accepted has been popped.
      rw [hnone]
      have hall := h.jobs
      rw [hempty, append_nil] at hall
      refine ⟨prefix_rfl, prefix_rfl, ?_⟩
      rw [← hall]
      exact min_le_left _ _
    generalize jobPop w.queue = r at hsome
    obtain ⟨popped, q⟩ := r
    obtain rfl : popped = some job := hsome
    have hjobs : (w.popped ++ [(core, job)]).map Prod.snd = w.poppedJobs ++ [job] := by
      rw [map_append, map_singleton, World.poppedJobs]
    refine ⟨prefix_rfl, ?_, ?_⟩
    · show w.poppedJobs <+: (w.popped ++ [(core, job)]).map Prod.snd
      rw [hjobs]
      exact prefix_append _ _
    show _ ≤ ((w.popped ++ [(core, job)]).map Prod.snd).length
    rw [hjobs, length_append]
    exact min_le_right _ _

variable {es : List Event}

/-- Run lemma: by induction over the events, with the number of pops among them. -/
lemma run_grows {w v : World} (hrun : machine.Run w es v) (h : Inv w) :
  Grows w v (es.countP Event.isPop) := by
  induction hrun with
  | nil w => exact ⟨prefix_rfl, prefix_rfl, min_le_right _ _⟩
  | @cons w v e es henabled _ ih =>
    have hfirst := react_grows h e
    have hrest := ih (h.step henabled)
    refine ⟨hfirst.accepted.trans hrest.accepted, hfirst.popped.trans hrest.popped, ?_⟩
    have hlonger := hfirst.accepted.length_le
    have htaken := hfirst.taken
    have hlater : min (w.react e).accepted.length
        ((w.react e).poppedJobs.length + es.countP Event.isPop) ≤ v.poppedJobs.length :=
      hrest.taken
    rw [countP_cons]
    omega

lemma drained {w v : World} (hrun : machine.Run w es v) (h : Inv w)
  (hpops : w.queue.waiting.length ≤ es.countP Event.isPop) : w.accepted <+: v.poppedJobs := by
  have hgrows := run_grows hrun h
  have hend : Inv v := hrun.invariant Inv (fun _ _ h henabled => h.step henabled) h
  apply prefix_of_prefix_length_le hgrows.accepted
  · rw [← hend.jobs]
    exact prefix_append _ _
  have hlength : w.accepted.length = w.poppedJobs.length + w.queue.waiting.length := by
    rw [← h.jobs, length_append]
  have htaken := hgrows.taken
  omega

/-- In every interleaving the jobs popped, followed by those waiting, are the jobs accepted, in
their order; a submission is refused exactly when the ring is full; the counter counts the jobs
accepted; and as many pops as there are jobs waiting empty the ring, by whatever cores. -/
theorem jobs_popped_exactly_once {w : World} (hw : machine.Reachable w) :
  w.poppedJobs ++ w.queue.waiting = w.accepted ∧
    (∀ job, (smpSubmit w.queue job).1 = false ↔ w.queue.waiting.length = jobQueue - 1) ∧
    w.queue.waiting.length ≤ jobQueue - 1 ∧
    (w.apJobCount + w.uncounted) % 2 ^ 64 = w.accepted.length % 2 ^ 64 ∧
    (w.counting = false → w.apJobCount = w.accepted.length % 2 ^ 64) ∧
    ∀ es v, machine.Run w es v → w.queue.waiting.length ≤ es.countP Event.isPop →
      w.accepted <+: v.poppedJobs := by
  have h := Inv.of_reachable hw
  exact ⟨h.jobs, smpSubmit_refused h.valid, Nat.le_pred_of_lt w.queue.length_waiting_lt,
    h.counter.2, h.counter_eq, fun es v hrun hpops => drained hrun h hpops⟩

def bootWorld : World := ⟨⟨fun _ => ⟨0, 0⟩, 0, 0⟩, 0, false, [], []⟩

def twoJobs : List Event := [.submit ⟨1, 10⟩, .count, .submit ⟨2, 20⟩, .pop 3]

theorem jobs_popped_exactly_once_two :
  let w := twoJobs.foldl World.react bootWorld
  w.popped = [(3, ⟨1, 10⟩)] ∧ w.poppedJobs ++ w.queue.waiting = w.accepted := by
  have hstart : machine.Reachable bootWorld :=
    Machine.reachable_of_init ⟨rfl, rfl, rfl, rfl, rfl, rfl⟩
  have hrun : machine.Run bootWorld twoJobs (twoJobs.foldl World.react bootWorld) :=
    .cons rfl (.cons rfl (.cons rfl (.cons trivial (.nil _))))
  exact ⟨by decide, (jobs_popped_exactly_once (hstart.run hrun)).1⟩

end Aeos.Smp
