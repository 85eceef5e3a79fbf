/-
# Messages and channels of the Rust `ipc` crate

`message.rs`, `channel.rs` and `lib.rs` of `ipc/src`. Three sizes should agree and do not.
-/

import Mathlib.Data.List.Basic
import Mathlib.Data.List.GetD

namespace Aeos.Channels

open List

def maxMessageSize : Nat := 4096

def maxMessagesPerChannel : Nat := 64

inductive IpcError
  | channelNotFound
  | channelFull
  | channelEmpty
  | messageTooLarge
  deriving DecidableEq

inductive MessageType
  | data
  | control
  | sync
  | event
  deriving DecidableEq

structure MessageHeader where
  msgType : MessageType
  sender : Nat
  size : Nat
  flags : Nat
  deriving DecidableEq

structure Message where
  header : MessageHeader
  data : Fin 64 → UInt8

def Message.new (msgType : MessageType) (sender : Nat) (data : List UInt8) : Option Message :=
  let size := min data.length 64
  if data.length = size then some ⟨⟨msgType, sender, size, 0⟩, fun i => data.getD i 0⟩ else none

def Message.dataSlice (m : Message) : Option (List UInt8) :=
  if m.header.size ≤ 64 then some ((List.ofFn m.data).take m.header.size) else none

structure ChannelConfig where
  maxMessages : Nat
  maxMessageSize : Nat
  bounded : Bool

def ChannelConfig.default : ChannelConfig :=
  ⟨maxMessagesPerChannel, Channels.maxMessageSize, true⟩

structure Channel where
  id : Nat
  config : ChannelConfig
  queue : List Message
  messagesSent : Nat
  messagesReceived : Nat
  closed : Bool

namespace Channel

def new (id : Nat) (config : ChannelConfig) : Channel := ⟨id, config, [], 0, 0, false⟩

def send (c : Channel) (m : Message) : Except IpcError Unit × Channel :=
  if c.closed then (.error .channelNotFound, c)
  else if m.header.size > c.config.maxMessageSize then (.error .messageTooLarge, c)
  else if c.config.bounded && c.queue.length ≥ c.config.maxMessages then (.error .channelFull, c)
  else (.ok (), { c with queue := c.queue ++ [m], messagesSent := c.messagesSent + 1 })

def receive (c : Channel) : Except IpcError Message × Channel :=
  if c.closed then (.error .channelNotFound, c)
  else
    match c.queue with
    | [] => (.error .channelEmpty, c)
    | m :: rest =>
      (.ok m, { c with queue := rest, messagesReceived := c.messagesReceived + 1 })

def close (c : Channel) : Channel := { c with closed := true, queue := [] }

end Channel

/-- `build` is a message made by `Message::new` and sent. -/
inductive Event
  | build (msgType : MessageType) (sender : Nat) (data : List UInt8)
  | send (m : Message)
  | receive
  | close

structure Observed where
  channel : Channel
  accepted : List Message
  received : List Message

namespace Observed

def send (o : Observed) (m : Message) : Observed :=
  match o.channel.send m with
  | (.ok _, c) => { o with channel := c, accepted := o.accepted ++ [m] }
  | (.error _, c) => { o with channel := c }

def react (o : Observed) : Event → Observed
  | .build msgType sender data => ((Message.new msgType sender data).map o.send).getD o
  | .send m => o.send m
  | .receive =>
    match o.channel.receive with
    | (.ok m, c) => { o with channel := c, received := o.received ++ [m] }
    | (.error _, c) => { o with channel := c }
  | .close => { o with channel := o.channel.close }

/-- What a run on a new channel with the default configuration leads to. -/
def run (id : Nat) (es : List Event) : Observed :=
  es.foldl react ⟨.new id .default, [], []⟩

structure InOrder (o : Observed) : Prop where
  config : o.channel.config = .default
  size : ∀ m ∈ o.accepted, m.header.size ≤ maxMessageSize
  received : o.received <+: o.accepted
  waiting : o.channel.closed = false → o.accepted = o.received ++ o.channel.queue

namespace InOrder

variable {o : Observed}

lemma send (h : InOrder o) (m : Message) : InOrder (o.send m) := by
  unfold Observed.send Channel.send
  split_ifs with hclosed hlarge hfull
  · exact h
  · exact h
  · exact h
  have hqueue := h.waiting (eq_false_of_ne_true hclosed)
  rw [h.config] at hlarge
  refine ⟨h.config, fun m' hm' => ?_, h.received.trans (prefix_append _ _), fun _ => ?_⟩
  · rcases mem_append.mp hm' with hold | hnew
    · exact h.size m' hold
    rw [mem_singleton.mp hnew]
    exact Nat.le_of_not_lt hlarge
  · rw [hqueue, append_assoc]

lemma step (h : InOrder o) (e : Event) : InOrder (o.react e) := by
  cases e with
  | build msgType sender data =>
    cases hnew : Message.new msgType sender data with
    | none =>
      rw [react, hnew]
      exact h
    | some m =>
      rw [react, hnew]
      exact h.send m
  | send m => exact h.send m
  | receive =>
    unfold react Channel.receive
    split_ifs with hclosed
    · exact h
    have hqueue := h.waiting (eq_false_of_ne_true hclosed)
    cases hfirst : o.channel.queue with
    | nil => exact h
    | cons m rest =>
      rw [hfirst, append_cons] at hqueue
      exact ⟨h.config, h.size, ⟨rest, hqueue.symm⟩, fun _ => hqueue⟩
  | close => exact ⟨h.config, h.size, h.received, nofun⟩

end InOrder

lemma inOrder_run (id : Nat) (es : List Event) : InOrder (run id es) := by
  have hstart : InOrder ⟨.new id .default, [], []⟩ :=
    ⟨rfl, fun m hm => absurd hm not_mem_nil, prefix_rfl, fun _ => rfl⟩
  unfold run
  generalize (⟨.new id .default, [], []⟩ : Observed) = o at hstart
  induction es generalizing o with
  | nil => exact hstart
  | cons e es ih => exact ih _ (hstart.step e)

end Observed

lemma Message.new_isSome_iff (msgType : MessageType) (sender : Nat) (data : List UInt8) :
  (Message.new msgType sender data).isSome ↔ data.length ≤ 64 := by
  unfold Message.new
  dsimp only
  split_ifs with hsame
  · exact iff_of_true rfl (by omega)
  · exact iff_of_false (by simp) (by omega)

lemma Message.dataSlice_new {msgType : MessageType} {sender : Nat} {data : List UInt8}
  {m : Message} (hnew : Message.new msgType sender data = some m) :
  m.dataSlice = some (data.take 64) := by
  unfold Message.new at hnew
  dsimp only at hnew
  split_ifs at hnew with hsame
  obtain rfl := Option.some.inj hnew
  rw [Message.dataSlice, if_pos (Nat.min_le_right _ _)]
  refine congrArg some (ext_getElem ?_ fun i hi hi' => ?_)
  · simp [Nat.min_comm]
  rw [length_take] at hi'
  have hlt : i < data.length := by omega
  rw [getElem_take, getElem_take, List.getElem_ofFn]
  exact getD_eq_getElem _ _ hlt

/-- Every `Message::new` returns, and the data of every message received can be read and is the
first 64 bytes of the slice it was made from. -/
structure Carried (id : Nat) (es : List Event) : Prop where
  made : ∀ msgType sender data, .build msgType sender data ∈ es →
    (Message.new msgType sender data).isSome
  read : ∀ m ∈ (Observed.run id es).received, m.dataSlice.isSome
  data : ∀ m ∈ (Observed.run id es).received, ∀ msgType sender data,
    Message.new msgType sender data = some m → m.dataSlice = some (data.take 64)

/-- Payloads are carried exactly in the runs that make no message from more than 64 bytes and
receive none with a larger size; messages come in the order they were accepted. -/
theorem messages_carry_payload_iff (id : Nat) (es : List Event) : (Carried id es ↔
    (∀ msgType sender data, .build msgType sender data ∈ es → data.length ≤ 64) ∧
    ∀ m ∈ (Observed.run id es).received, m.header.size ≤ 64) ∧
  (Observed.run id es).received <+: (Observed.run id es).accepted := by
  have hread : ∀ m : Message, m.dataSlice.isSome ↔ m.header.size ≤ 64 := by
    intro m
    unfold Message.dataSlice
    split_ifs with hsize
    · exact iff_of_true rfl hsize
    · exact iff_of_false (by simp) hsize
  refine ⟨⟨fun h => ⟨fun t s d hd => ?_, fun m hm => ?_⟩, fun h => ⟨fun t s d hd => ?_, ?_, ?_⟩⟩,
    (Observed.inOrder_run id es).received⟩
  · exact (Message.new_isSome_iff t s d).mp (h.made t s d hd)
  · exact (hread m).mp (h.read m hm)
  · exact (Message.new_isSome_iff t s d).mpr (h.1 t s d hd)
  · exact fun m hm => (hread m).mpr (h.2 m hm)
  · exact fun m _ t s d hnew => Message.dataSlice_new hnew

/-- A slice of 65 bytes makes no message, and a message that says it has 65 is received
and cannot be read. -/
theorem long_message_panics : Message.new .data 0 (List.replicate 65 0) = none ∧
  (Observed.run 0 [.send ⟨⟨.data, 0, 65, 0⟩, fun _ => 0⟩, .receive]).received =
    [⟨⟨.data, 0, 65, 0⟩, fun _ => 0⟩] ∧
  Message.dataSlice ⟨⟨.data, 0, 65, 0⟩, fun _ => 0⟩ = none := by
  refine ⟨?_, ?_, ?_⟩ <;> rfl

/-! ## The table of channels: `ipc/src/lib.rs` -/

/-- `NotInitialized`, or an error of the above. -/
inductive StateError
  | notInitialized
  | ipc (e : IpcError)

structure IpcState where
  channels : List (Option Channel)
  channelCount : Nat
  initialized : Bool

namespace IpcState

def new : IpcState := ⟨replicate 32 none, 0, false⟩

def init (s : IpcState) : IpcState := { s with initialized := true }

def createChannel (s : IpcState) (config : ChannelConfig) : Except StateError Nat × IpcState :=
  if !s.initialized then (.error .notInitialized, s)
  else if 32 ≤ s.channelCount then (.error (.ipc .channelFull), s)
  else
    match s.channels.findIdx? (·.isNone) with
    | none => (.error (.ipc .channelFull), s)
    | some slot =>
      (.ok slot, { s with
        channels := s.channels.set slot (some (.new slot config))
        channelCount := s.channelCount + 1 })

/-- `get_channel_mut`. -/
def channel (s : IpcState) (id : Nat) : Option Channel := s.channels[id]?.join

def onChannel {α : Type} (s : IpcState) (id : Nat)
    (call : Channel → Except IpcError α × Channel) : Except IpcError α × IpcState :=
  match s.channel id with
  | none => (.error .channelNotFound, s)
  | some c => ((call c).1, { s with channels := s.channels.set id (some (call c).2) })

def send (s : IpcState) (id : Nat) (m : Message) : Except IpcError Unit × IpcState :=
  s.onChannel id (·.send m)

def receive (s : IpcState) (id : Nat) : Except IpcError Message × IpcState :=
  s.onChannel id Channel.receive

inductive Call
  | init
  | create (config : ChannelConfig)
  | send (id : Nat) (m : Message)
  | receive (id : Nat)

def react (s : IpcState) : Call → IpcState
  | .init => s.init
  | .create config => (s.createChannel config).2
  | .send id m => (s.send id m).2
  | .receive id => (s.receive id).2

/-- What a call is to channel `i`. -/
def Call.own (i : Nat) : Call → Option Event
  | .send id m => if id = i then some (.send m) else none
  | .receive id => if id = i then some .receive else none
  | _ => none

variable {s : IpcState} {i : Nat}

lemma onChannel_channel {α : Type} (id : Nat) (call : Channel → Except IpcError α × Channel) :
  (s.onChannel id call).2.channel i =
    if id = i then (s.channel i).map fun c => (call c).2 else s.channel i := by
  grind [onChannel, channel]

/-- Inversion of `create_channel`. -/
lemma createChannel_cases (s : IpcState) (config : ChannelConfig) :
  (∃ e, s.createChannel config = (.error e, s)) ∨ ∃ slot c, s.channels[slot]? = some none ∧
    s.createChannel config = (.ok slot, { s with
      channels := s.channels.set slot (some (.new slot config)), channelCount := c }) := by
  unfold createChannel
  split_ifs
  · exact .inl ⟨_, rfl⟩
  · exact .inl ⟨_, rfl⟩
  split
  · exact .inl ⟨_, rfl⟩
  next slot hslot =>
    obtain ⟨hlt, hnone, -⟩ := findIdx?_eq_some_iff_getElem.mp hslot
    exact .inr ⟨slot, _, by simp_all, rfl⟩

lemma react_channel {o : Observed} (h : s.channel i = some o.channel) (call : Call) :
  (s.react call).channel i = some (((call.own i).elim o o.react).channel) := by
  cases call with
  | init => exact h
  | create config =>
    rcases createChannel_cases s config with ⟨e, heq⟩ | ⟨slot, c, hfree, heq⟩
    · rw [react, heq]
      exact h
    · rw [react, heq]
      grind [channel, Call.own]
  | send id m =>
    rw [react, IpcState.send, onChannel_channel, h, Call.own]
    split_ifs
    · simp only [Option.elim, Observed.react, Observed.send]
      split <;> simp_all
    · rfl
  | receive id =>
    rw [react, IpcState.receive, onChannel_channel, h, Call.own]
    split_ifs
    · simp only [Option.elim, Observed.react]
      split <;> simp_all
    · rfl

lemma foldl_channel {o : Observed} (h : s.channel i = some o.channel) (calls : List Call) :
  (calls.foldl react s).channel i =
    some ((calls.filterMap (Call.own i)).foldl Observed.react o).channel := by
  induction calls generalizing s o with
  | nil => exact h
  | cons call calls ih =>
    have hrest := ih (react_channel h call)
    cases hown : call.own i <;> simpa [hown] using hrest

end IpcState

/-- A channel that `create_channel` returns was not there before, and is from then on what its own
sends and receives make of a new channel, whatever is done to the others. -/
theorem channels_kept_apart (s : IpcState) (config : ChannelConfig) (calls : List IpcState.Call)
  {i : Nat} (hnew : (s.createChannel config).1 = .ok i) : s.channel i = none ∧
  (calls.foldl .react (s.createChannel config).2).channel i =
    some ((calls.filterMap (IpcState.Call.own i)).foldl Observed.react
      ⟨.new i config, [], []⟩).channel := by
  rcases s.createChannel_cases config with ⟨e, heq⟩ | ⟨slot, c, hfree, heq⟩
  · rw [heq] at hnew
    cases hnew
  rw [heq] at hnew ⊢
  obtain rfl : slot = i := by simpa using hnew
  refine ⟨by simp [IpcState.channel, hfree], IpcState.foldl_channel ?_ calls⟩
  grind [IpcState.channel]

def note : Message := ⟨⟨.data, 1, 1, 0⟩, fun _ => 7⟩

theorem channels_kept_apart_second : IpcState.channel
    ([.create .default, .send 1 note, .send 0 note, .receive 1].foldl .react
      (IpcState.new.init.createChannel .default).2) 0 =
      some (Observed.react ⟨.new 0 .default, [], []⟩ (.send note)).channel :=
  (channels_kept_apart IpcState.new.init .default
    [.create .default, .send 1 note, .send 0 note, .receive 1] rfl).2

end Aeos.Channels
