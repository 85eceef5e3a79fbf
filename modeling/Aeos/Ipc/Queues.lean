/-
# Message queues are bounded FIFOs

What the queues of `kernel/ipc.c` are for: a live queue is a list of at most `IPC_MAX_MSG`
messages. The ring with its three counters does what the list does, call by call and for every
interleaving.
-/

import Aeos.Ipc.Model
import Aeos.Lib.Machine
import Aeos.Lib.Ring
import Mathlib.Data.List.Find

namespace Aeos.Ipc

open Lib List Option Function

abbrev Memory := BitVec 64 → UInt8

inductive Event
  | create (owner : Nat)
  | send (queueId : Int) (data : BitVec 64) (len sender : Nat)
  | recv (queueId : Int) (buf len sender : BitVec 64)
  | destroy (queueId : Int)
  deriving DecidableEq

/-- What the caller sees of a call: its result, and the memory it leaves. -/
structure Reply where
  result : Int
  mem : Memory

def call (queues : Nat → Queue) (m : Memory) : Event → Reply × (Nat → Queue)
  | .create owner =>
    let r := ipcCreate queues owner
    (⟨r.1, m⟩, r.2)
  | .send queueId data len sender =>
    let r := ipcSend queues queueId data len sender m
    (⟨r.value.1, r.mem⟩, r.value.2)
  | .recv queueId buf len sender =>
    let r := ipcRecv queues queueId buf len sender m
    (⟨r.value.1, r.mem⟩, r.value.2)
  | .destroy queueId =>
    let r := ipcDestroy queues queueId
    (⟨r.1, m⟩, r.2)

/-- Every interleaving of calls after `ipc_init`. -/
def machine : Machine (Nat → Queue) (Event × Memory) where
  init queues := ∀ i < ipcMaxQueues, (queues i).inUse = false ∧ (queues i).head = 0 ∧
    (queues i).tail = 0 ∧ (queues i).count = 0
  enabled _ _ := True
  step queues e := (call queues e.2 e.1).2

/-- What the receiver gets of a message. -/
structure Message where
  bytes : List UInt8
  sender : Nat
  deriving DecidableEq

/-- The queues as lists, `none` for a queue that is not in use. -/
abbrev Boxes := Nat → Option (List Message)

def Boxes.at (boxes : Boxes) (queueId : Int) : Option (Nat × List Message) :=
  if 0 ≤ queueId then (boxes queueId.toNat).map fun pending => (queueId.toNat, pending) else none

def taken (m : Memory) (data : BitVec 64) (len : Nat) : List UInt8 :=
  (List.range (min len ipcMsgSize)).map fun j => m (place data j)

def putWord (m : Memory) (ptr : BitVec 64) (x : Nat) : Memory :=
  if ptr = 0 then m else Access.writeAt m ptr ((List.range 4).map (leByte x))

/-- The message copied out: its bytes, its length and its sender. -/
def deliver (m : Memory) (buf len sender : BitVec 64) (msg : Message) : Memory :=
  putWord (putWord (Access.writeAt m buf msg.bytes) len msg.bytes.length) sender msg.sender

def Boxes.call (boxes : Boxes) (m : Memory) : Event → Reply × Boxes
  | .create _ =>
    match (List.range ipcMaxQueues).find? fun i => (boxes i).isNone with
    | none => (⟨ipcErrFull, m⟩, boxes)
    | some i => (⟨i, m⟩, update boxes i (some []))
  | .send queueId data len sender =>
    match boxes.at queueId with
    | none => (⟨ipcErrInvalid, m⟩, boxes)
    | some (i, pending) =>
      if pending.length = ipcMaxMsg then (⟨ipcErrFull, m⟩, boxes)
      else if data = 0 ∧ 0 < len then (⟨ipcErrInvalid, m⟩, boxes)
      else (⟨ipcOk, m⟩, update boxes i (some (pending ++ [⟨taken m data len, sender⟩])))
  | .recv queueId buf len sender =>
    match boxes.at queueId with
    | none => (⟨ipcErrInvalid, m⟩, boxes)
    | some (i, pending) =>
      if buf = 0 then (⟨ipcErrInvalid, m⟩, boxes)
      else
        match pending with
        | [] => (⟨ipcErrEmpty, m⟩, boxes)
        | msg :: rest => (⟨ipcOk, deliver m buf len sender msg⟩, update boxes i (some rest))
  | .destroy queueId =>
    match boxes.at queueId with
    | none => (⟨ipcErrInvalid, m⟩, boxes)
    | some (i, _) => (⟨ipcOk, m⟩, update boxes i none)

/-! ## The ring refines the list -/

def Msg.message (msg : Msg) : Message := ⟨(List.range msg.len).map msg.data, msg.sender⟩

def Queue.pending (q : Queue) : List Message :=
  (ringList ipcMaxMsg q.queue q.head q.count).map Msg.message

def boxes (queues : Nat → Queue) : Boxes := fun i =>
  if i < ipcMaxQueues ∧ (queues i).inUse then some (queues i).pending else none

def Inv (queues : Nat → Queue) : Prop :=
  ∀ i < ipcMaxQueues, (queues i).inUse = true →
    RingIndices ipcMaxMsg (queues i).head (queues i).tail (queues i).count

@[simp]
lemma length_pending (q : Queue) : q.pending.length = q.count := by
  rw [Queue.pending, length_map, length_ringList]

variable {queues : Nat → Queue} {i : Nat} {q : Queue} {queueId : Int} {m : Memory} {e : Event}

lemma boxes_update_live (hi : i < ipcMaxQueues) (huse : q.inUse = true) :
  boxes (update queues i q) = update (boxes queues) i (some q.pending) := by
  funext j
  by_cases hj : j = i
  · subst hj
    simp [boxes, hi, huse]
  · simp [boxes, hj]

lemma boxes_update_dead (huse : q.inUse = false) :
  boxes (update queues i q) = update (boxes queues) i none := by
  funext j
  by_cases hj : j = i
  · subst hj
    simp [boxes, huse]
  · simp [boxes, hj]

lemma Inv.update (h : Inv queues)
  (hq : q.inUse = true → RingIndices ipcMaxMsg q.head q.tail q.count) :
  Inv (update queues i q) := by
  intro j hj huse
  by_cases hji : j = i
  · subst hji
    rw [update_self] at huse ⊢
    exact hq huse
  rw [update_of_ne hji] at huse ⊢
  exact h j hj huse

lemma at_boxes (queues : Nat → Queue) (queueId : Int) :
  (boxes queues).at queueId = (queueAt queues queueId).map fun i => (i, (queues i).pending) := by
  rw [Boxes.at, queueAt, boxes]
  by_cases hneg : 0 ≤ queueId
  · have hrange : queueId.toNat < ipcMaxQueues ↔ queueId < ipcMaxQueues := by omega
    by_cases hlive : queueId < ipcMaxQueues ∧ (queues queueId.toNat).inUse
    · simp [hneg, hlive, hrange]
    · simp [hneg, hlive, hrange]
  · simp [hneg]

def Queue.Live (q : Queue) (i : Nat) : Prop :=
  i < ipcMaxQueues ∧ q.inUse = true ∧ RingIndices ipcMaxMsg q.head q.tail q.count

lemma boxes_of_live (h : (queues i).Live i) : boxes queues i = some (queues i).pending :=
  if_pos ⟨h.1, h.2.1⟩

lemma queueAt_some (h : Inv queues) (hat : queueAt queues queueId = some i) :
  queueId = i ∧ (queues i).Live i := by
  rw [queueAt] at hat
  split_ifs at hat with hlive
  obtain rfl := some.inj hat
  have hi : queueId.toNat < ipcMaxQueues := by omega
  exact ⟨(Int.toNat_of_nonneg hlive.1).symm, hi, hlive.2.2, h _ hi hlive.2.2⟩

lemma pending_put (h : RingIndices ipcMaxMsg q.head q.tail q.count) (hroom : q.count < ipcMaxMsg)
  (msg : Msg) : (q.put msg).pending = q.pending ++ [msg.message] := by
  rw [Queue.pending, Queue.pending, Queue.put, ringList_push h hroom, map_append,
    map_singleton]

lemma ipcSend_ok {data : BitVec 64} {len : Nat} (hat : queueAt queues queueId = some i)
  (hroom : (queues i).count < ipcMaxMsg) (hdata : ¬ (data = 0 ∧ 0 < len)) (sender : Nat)
  (m : Memory) : ∃ msg : Msg, msg.message = ⟨taken m data len, sender⟩ ∧
    (ipcSend queues queueId data len sender m).value =
      (ipcOk, update queues i ((queues i).put msg)) ∧
    (ipcSend queues queueId data len sender m).mem = m := by
  have hlen : copyLen len = min len ipcMsgSize := by
    unfold copyLen
    split <;> omega
  rw [ipcSend, hat]
  dsimp only
  rw [if_neg (Nat.not_le.mpr hroom), if_neg hdata]
  by_cases hcopy : 0 < copyLen len ∧ data ≠ 0
  · rw [if_pos hcopy, Access.value_bind, Access.mem_bind, Access.value_loadBytes,
      Access.mem_loadBytes]
    refine ⟨_, ?_, rfl, rfl⟩
    rw [Msg.message, taken, ← hlen]
    congr 1
    apply map_congr_left
    intro j hj
    have hj := mem_range.mp hj
    dsimp only
    rw [overwrite_zero hj]
    simp [hj]
  rw [if_neg hcopy]
  refine ⟨_, ?_, rfl, rfl⟩
  have hzero : min len ipcMsgSize = 0 := by
    by_contra hne
    have hnull : data = 0 := by
      by_contra hnot
      exact hcopy ⟨by omega, hnot⟩
    exact hdata ⟨hnull, by have := copyLen_le len; omega⟩
  rw [Msg.message, taken, hzero]
  rfl

def Queue.advance (q : Queue) : Queue :=
  { q with head := (q.head + 1) % ipcMaxMsg, count := q.count - 1 }

lemma pending_pop (h : RingIndices ipcMaxMsg q.head q.tail q.count) (hsome : q.count ≠ 0) :
  q.pending = (q.queue q.head).message :: q.advance.pending := by
  rw [Queue.pending, ringList_pop h hsome, map_cons]
  rfl

lemma ipcRecv_ok {buf : BitVec 64} (hat : queueAt queues queueId = some i) (hbuf : buf ≠ 0)
  (hsome : (queues i).count ≠ 0) (len sender : BitVec 64) (m : Memory) :
  (ipcRecv queues queueId buf len sender m).value = (ipcOk, update queues i (queues i).advance) ∧
    (ipcRecv queues queueId buf len sender m).mem =
      deliver m buf len sender ((queues i).queue (queues i).head).message := by
  have hword : ∀ (ptr : BitVec 64) (x : Nat) (m : Memory),
      (storeOptional ptr x m).mem = putWord m ptr x := by
    intro ptr x m
    by_cases hptr : ptr = 0
    · simp [storeOptional, putWord, hptr]
    rw [storeOptional, putWord, if_neg hptr, if_neg hptr, Access.storeWord,
      Access.mem_storeBytes (by simp)]
  have hlen := ((queues i).queue (queues i).head).len_le
  rw [ipcRecv, hat]
  dsimp only
  rw [if_neg hbuf, if_neg hsome]
  refine ⟨rfl, ?_⟩
  simp only [Access.mem_bind, Access.run_pure, hword]
  rw [Access.mem_storeBytes]
  · simp [deliver, Msg.message]
  rw [length_map, length_range]
  exact hlen.trans (by decide)

inductive Effect (queues : Nat → Queue) (m : Memory) (e : Event) :
    Reply × (Nat → Queue) → Reply × Boxes → Prop
  | refused {code : Int} (hneg : code < 0) :
      Effect queues m e (⟨code, m⟩, queues) (⟨code, m⟩, boxes queues)
  | created {owner k : Nat} {q : Queue} (he : e = .create owner) (hq : q.Live k)
      (hempty : q.pending = []) :
      Effect queues m e (⟨k, m⟩, update queues k q)
        (⟨k, m⟩, update (boxes queues) k (some q.pending))
  | sent {k : Nat} {data : BitVec 64} {len sender : Nat} {q : Queue}
      (he : e = .send k data len sender) (hq : q.Live k) (hlive : (queues k).Live k)
      (hadded : q.pending = (queues k).pending ++ [⟨taken m data len, sender⟩]) :
      Effect queues m e (⟨ipcOk, m⟩, update queues k q)
        (⟨ipcOk, m⟩, update (boxes queues) k (some q.pending))
  | received {k : Nat} {buf len sender : BitVec 64} {q : Queue} {mem : Memory}
      (he : e = .recv k buf len sender) (hq : q.Live k) (hlive : (queues k).Live k)
      (hfirst : (queues k).pending = ((queues k).queue (queues k).head).message :: q.pending)
      (hmem : mem = deliver m buf len sender ((queues k).queue (queues k).head).message) :
      Effect queues m e (⟨ipcOk, mem⟩, update queues k q)
        (⟨ipcOk, mem⟩, update (boxes queues) k (some q.pending))
  | destroyed {k : Nat} {q : Queue} (he : e = .destroy k) (hdead : q.inUse = false) :
      Effect queues m e (⟨ipcOk, m⟩, update queues k q)
        (⟨ipcOk, m⟩, update (boxes queues) k none)

lemma call_effect (h : Inv queues) (m : Memory) (e : Event) :
  Effect queues m e (call queues m e) ((boxes queues).call m e) := by
  cases e with
  | create owner =>
    have hfind : (List.range ipcMaxQueues).find? (fun i => (boxes queues i).isNone) =
        (List.range ipcMaxQueues).find? fun i => !(queues i).inUse := by
      apply List.find?_congr
      intro i hi
      have hi := mem_range.mp hi
      cases huse : (queues i).inUse <;> simp [boxes, hi, huse]
    simp only [call, ipcCreate, Boxes.call, hfind]
    cases hfree : (List.range ipcMaxQueues).find? fun i => !(queues i).inUse with
    | none => exact .refused (show ipcErrFull < 0 by decide)
    | some i =>
      have hi := mem_range.mp (List.mem_of_find?_eq_some hfree)
      exact .created rfl ⟨hi, rfl, RingIndices.empty (by decide)⟩ rfl
  | send queueId data len sender =>
    cases hat : queueAt queues queueId with
    | none =>
      simp only [call, ipcSend, Boxes.call, at_boxes, hat, map_none, Access.run_pure]
      exact .refused (by decide)
    | some i =>
      obtain ⟨rfl, hlive⟩ := queueAt_some h hat
      obtain ⟨hi, huse, hring⟩ := hlive
      by_cases hfull : (queues i).count = ipcMaxMsg
      · simp only [call, ipcSend, Boxes.call, at_boxes, hat, map_some, length_pending, hfull,
          le_refl, if_true, Access.run_pure]
        exact .refused (by decide)
      have hroom := lt_of_le_of_ne hring.count_le hfull
      by_cases hdata : data = 0 ∧ 0 < len
      · simp only [call, ipcSend, Boxes.call, at_boxes, hat, map_some, length_pending, hfull,
          if_neg (Nat.not_le.mpr hroom), if_false, if_pos hdata, Access.run_pure]
        exact .refused (by decide)
      obtain ⟨msg, hmsg, hvalue, hmem⟩ := ipcSend_ok hat hroom hdata sender m
      have hadded := (pending_put hring hroom msg).trans (by rw [hmsg])
      simp only [call, hvalue, hmem, Boxes.call, at_boxes, hat, map_some, length_pending,
        hfull, if_false, if_neg hdata, ← hadded]
      exact .sent rfl ⟨hi, huse, hring.push hroom⟩ ⟨hi, huse, hring⟩ hadded
  | recv queueId buf len sender =>
    cases hat : queueAt queues queueId with
    | none =>
      simp only [call, ipcRecv, Boxes.call, at_boxes, hat, map_none, Access.run_pure]
      exact .refused (by decide)
    | some i =>
      obtain ⟨rfl, hlive⟩ := queueAt_some h hat
      obtain ⟨hi, huse, hring⟩ := hlive
      by_cases hbuf : buf = 0
      · simp only [call, ipcRecv, Boxes.call, at_boxes, hat, map_some, hbuf, if_true,
          Access.run_pure]
        exact .refused (by decide)
      by_cases hsome : (queues i).count = 0
      · have hnil : (queues i).pending = [] := by
          rw [← length_eq_zero_iff, length_pending, hsome]
        simp only [call, ipcRecv, Boxes.call, at_boxes, hat, map_some, if_neg hbuf, hsome,
          if_true, hnil, Access.run_pure]
        exact .refused (by decide)
      obtain ⟨hvalue, hmem⟩ := ipcRecv_ok hat hbuf hsome len sender m
      have hfirst := pending_pop hring hsome
      simp only [call, hvalue, hmem, Boxes.call, at_boxes, hat, map_some, if_neg hbuf, hfirst]
      exact .received rfl ⟨hi, huse, hring.pop hsome⟩ ⟨hi, huse, hring⟩ hfirst rfl
  | destroy queueId =>
    cases hat : queueAt queues queueId with
    | none =>
      simp only [call, ipcDestroy, Boxes.call, at_boxes, hat, map_none]
      exact .refused (by decide)
    | some i =>
      obtain ⟨rfl, -⟩ := queueAt_some h hat
      simp only [call, ipcDestroy, Boxes.call, at_boxes, hat, map_some]
      exact .destroyed rfl rfl

lemma call_refines (h : Inv queues) (m : Memory) (e : Event) :
  (call queues m e).1 = ((boxes queues).call m e).1 ∧
    boxes (call queues m e).2 = ((boxes queues).call m e).2 ∧ Inv (call queues m e).2 := by
  have heffect := call_effect h m e
  generalize call queues m e = r, (boxes queues).call m e = s at *
  cases heffect with
  | refused => exact ⟨rfl, rfl, h⟩
  | created _ hq | sent _ hq | received _ hq =>
    exact ⟨rfl, boxes_update_live hq.1 hq.2.1, h.update fun _ => hq.2.2⟩
  | destroyed _ hdead =>
    exact ⟨rfl, boxes_update_dead hdead,
      h.update fun huse => absurd (huse.symm.trans hdead) (by decide)⟩

lemma inv_of_reachable (h : machine.Reachable queues) : Inv queues := by
  refine h.invariant Inv (fun queues hinit i hi huse => ?_) fun queues e hinv _ => ?_
  · rw [(hinit i hi).1] at huse
    cases huse
  · exact (call_refines hinv e.2 e.1).2.2

/-! ## What is sent is received -/

def logStep (i : Nat) (log : List Message × List Message)
  (x : (Nat → Queue) × Event × Memory) : List Message × List Message :=
  let r := (call x.1 x.2.2 x.2.1).1.result
  match x.2.1 with
  | .create _ => if r = i then ([], []) else log
  | .send queueId data len sender =>
    if queueId = i ∧ r = ipcOk then (log.1 ++ [⟨taken x.2.2 data len, sender⟩], log.2) else log
  | .recv queueId _ _ _ =>
    if queueId = i ∧ r = ipcOk then
      (log.1, log.2 ++ [((x.1 i).queue (x.1 i).head).message])
    else log
  | .destroy _ => log

/-- The log of queue `i` after a history. -/
def log (i : Nat) (h : List ((Nat → Queue) × Event × Memory)) : List Message × List Message :=
  h.foldl (logStep i) ([], [])

def Event.queue (result : Int) : Event → Int
  | .create _ => result
  | .send queueId _ _ _ | .recv queueId _ _ _ | .destroy queueId => queueId

lemma call_failed (h : Inv queues) (hneg : (call queues m e).1.result < 0) :
  (call queues m e).2 = queues := by
  have heffect := call_effect h m e
  generalize call queues m e = r, (boxes queues).call m e = s at *
  cases heffect with
  | refused => rfl
  | @created _ k => exact absurd hneg (Int.natCast_nonneg k).not_gt
  | sent | received | destroyed => exact absurd hneg (show ¬ ipcOk < 0 by decide)

lemma call_other (h : Inv queues) {j : Nat}
  (hj : e.queue (call queues m e).1.result ≠ (j : Int)) : (call queues m e).2 j = queues j := by
  have heffect := call_effect h m e
  generalize call queues m e = r, (boxes queues).call m e = s at *
  cases heffect with
  | refused => rfl
  | created he | sent he | received he | destroyed he =>
    subst he
    exact update_of_ne (fun heq => hj (congrArg Nat.cast heq.symm)) _ _

lemma logStep_of_keeps
  (hkeeps : (call queues m e).1.result < 0 ∨ e.queue (call queues m e).1.result ≠ (i : Int))
  (log : List Message × List Message) : logStep i log (queues, e, m) = log := by
  have hnot : ¬ (e.queue (call queues m e).1.result = i ∧ (call queues m e).1.result = ipcOk) := by
    rintro ⟨hqueue, hok⟩
    rcases hkeeps with hneg | hother
    · exact absurd (hok ▸ hneg) (by decide)
    · exact hother hqueue
  cases e with
  | create owner =>
    apply if_neg
    intro hresult
    rcases hkeeps with hneg | hother
    · dsimp only at hresult
      omega
    · exact hother hresult
  | send => exact if_neg hnot
  | recv => exact if_neg hnot
  | destroy => rfl

lemma logStep_pending (h : Inv queues) (m : Memory) (e : Event) {log : List Message × List Message}
  (hlog : ∀ pending, boxes queues i = some pending → log.1 = log.2 ++ pending)
  {pending : List Message} (hlive : boxes (call queues m e).2 i = some pending) :
  (logStep i log (queues, e, m)).1 = (logStep i log (queues, e, m)).2 ++ pending := by
  by_cases hkeeps : (call queues m e).1.result < 0 ∨ e.queue (call queues m e).1.result ≠ (i : Int)
  · have hsame : (call queues m e).2 i = queues i := by
      rcases hkeeps with hneg | hother
      · rw [call_failed h hneg]
      · exact call_other h hother
    rw [logStep_of_keeps hkeeps]
    apply hlog
    rw [← hlive, boxes, boxes, hsame]
  obtain ⟨hpos, hqueue⟩ := not_or.mp hkeeps
  have hqueue := not_not.mp hqueue
  rw [(call_refines h m e).2.1] at hlive
  have heffect := call_effect h m e
  generalize hr : call queues m e = r, (boxes queues).call m e = s at *
  cases heffect with
  | refused hneg => exact absurd hneg hpos
  | @created owner _ _ he _ hempty =>
    subst he
    obtain rfl := Int.ofNat_inj.mp hqueue
    simp only [update_self, Option.some.injEq] at hlive
    subst hlive
    have hstep : logStep _ log (queues, .create owner, m) = ([], []) := if_pos (by rw [hr])
    rw [hstep, hempty]
    rfl
  | @sent _ data len sender _ he _ hlive₀ hadded =>
    subst he
    obtain rfl := Int.ofNat_inj.mp hqueue
    simp only [update_self, Option.some.injEq] at hlive
    subst hlive
    have hstep : logStep _ log (queues, .send _ data len sender, m) =
        (log.1 ++ [⟨taken m data len, sender⟩], log.2) := if_pos ⟨rfl, by rw [hr]⟩
    rw [hstep, hlog _ (boxes_of_live hlive₀), hadded, append_assoc]
  | @received k buf len sender _ _ he _ hlive₀ hfirst =>
    subst he
    obtain rfl := Int.ofNat_inj.mp hqueue
    simp only [update_self, Option.some.injEq] at hlive
    subst hlive
    have hstep : logStep k log (queues, .recv k buf len sender, m) =
        (log.1, log.2 ++ [((queues k).queue (queues k).head).message]) := if_pos ⟨rfl, by rw [hr]⟩
    rw [hstep, hlog _ (boxes_of_live hlive₀), hfirst, append_assoc]
    rfl
  | destroyed he =>
    subst he
    obtain rfl := Int.ofNat_inj.mp hqueue
    simp [update_self] at hlive

lemma log_pending {q₀ : Nat → Queue} {es : List (Event × Memory)} (hinit : machine.init q₀)
  (hrun : machine.Run q₀ es queues) (i : Nat) : ∀ pending, boxes queues i = some pending →
    (log i (machine.history q₀ es)).1 = (log i (machine.history q₀ es)).2 ++ pending := by
  refine Machine.Run.induction_snoc (P := fun es queues => ∀ pending,
    boxes queues i = some pending →
      (log i (machine.history q₀ es)).1 = (log i (machine.history q₀ es)).2 ++ pending) ?_ ?_ hrun
  · intro pending hlive
    rw [boxes] at hlive
    split_ifs at hlive with hi
    rw [(hinit i hi.1).1] at hi
    cases hi.2
  intro es queues e hrun ih _ pending hlive
  have hinv := inv_of_reachable ⟨q₀, es, hinit, hrun⟩
  rw [hrun.history_snoc, log, foldl_append]
  exact logStep_pending hinv e.2 e.1 ih hlive

/-- After every interleaving of calls, a live queue is the list of the messages accepted since its
creation less those received; every call does to the queues what it does to the lists, and one
that fails changes nothing. -/
theorem queues_are_fifos {q₀ queues : Nat → Queue} {es : List (Event × Memory)}
  (hinit : machine.init q₀) (hrun : machine.Run q₀ es queues) :
  (∀ i pending, boxes queues i = some pending → pending.length ≤ ipcMaxMsg ∧
    (log i (machine.history q₀ es)).1 = (log i (machine.history q₀ es)).2 ++ pending) ∧
  (∀ m e, (call queues m e).1 = ((boxes queues).call m e).1 ∧
    boxes (call queues m e).2 = ((boxes queues).call m e).2) ∧
  (∀ m (i : Nat) buf len sender, (call queues m (.recv i buf len sender)).1.result = ipcOk →
    (call queues m (.recv i buf len sender)).1.mem =
      deliver m buf len sender ((queues i).queue (queues i).head).message) ∧
  (∀ m (i : Nat) data len sender pending, boxes queues i = some pending →
    ((call queues m (.send i data len sender)).1.result = ipcErrFull ↔
      pending.length = ipcMaxMsg)) ∧
  (∀ m e (j : Nat), e.queue (call queues m e).1.result ≠ (j : Int) →
    (call queues m e).2 j = queues j) ∧
  ∀ m e, (call queues m e).1.result < 0 → (call queues m e).2 = queues := by
  have hinv := inv_of_reachable ⟨q₀, es, hinit, hrun⟩
  refine ⟨fun i pending hlive => ⟨?_, log_pending hinit hrun i pending hlive⟩,
    fun m e => ⟨(call_refines hinv m e).1, (call_refines hinv m e).2.1⟩,
    fun m i buf len sender hok => ?_, fun m i data len sender pending hlive => ?_,
    fun m e j => call_other hinv, fun m e => call_failed hinv⟩
  · rw [boxes] at hlive
    split_ifs at hlive with hi
    rw [← some.inj hlive, length_pending]
    exact (hinv i hi.1 hi.2).count_le
  · have heffect := call_effect hinv m (.recv i buf len sender)
    generalize call queues m _ = r, (boxes queues).call m _ = s at *
    cases heffect with
    | refused hneg =>
      obtain rfl : _ = ipcOk := hok
      exact absurd hneg (by decide)
    | received he _ _ _ hmem =>
      obtain ⟨hik, rfl, rfl, rfl⟩ := Event.recv.inj he
      obtain rfl := Int.ofNat.inj hik
      exact hmem
    | created he | sent he | destroyed he => cases he
  have hat : (boxes queues).at i = some (i, pending) := by simp [Boxes.at, hlive]
  rw [(call_refines hinv m _).1]
  simp only [Boxes.call, hat]
  by_cases hfull : pending.length = ipcMaxMsg
  · rw [if_pos hfull]
    exact iff_of_true rfl hfull
  refine iff_of_false ?_ hfull
  split_ifs
  · exact (by decide : ipcErrInvalid ≠ ipcErrFull)
  · exact (by decide : ipcOk ≠ ipcErrFull)

def freshQueues : Nat → Queue :=
  fun _ => ⟨0, 0, 0, false, fun _ => ⟨fun _ => 0, 0, 0, by decide⟩, 0, 0, 0⟩

lemma freshQueues_init : machine.init freshQueues := fun _ _ => ⟨rfl, rfl, rfl, rfl⟩

def exchange : List (Event × Memory) :=
  [(.create 0, fun _ => 0), (.send 0 4096 1 7, fun _ => 65), (.send 0 4096 1 7, fun _ => 66),
    (.recv 0 8192 0 0, fun _ => 0)]

theorem queues_are_fifos_exchange : (log 0 (machine.history freshQueues exchange)).1 =
    (log 0 (machine.history freshQueues exchange)).2 ++ [⟨[66], 7⟩] :=
  ((queues_are_fifos freshQueues_init (Machine.run_foldl
      (fun _ _ => trivial) freshQueues exchange)).1 0 [⟨[66], 7⟩]
    (by decide +kernel)).2

end Aeos.Ipc
