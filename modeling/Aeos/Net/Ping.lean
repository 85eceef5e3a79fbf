/-
# Pinging an address

`net_ping` of `kernel/net.c`, with what the timer and the driver do meanwhile as its
input. The address passes through two representations.
-/

import Aeos.Net.Address
import Aeos.Net.Echo

namespace Aeos.Net

open Lib List

def netPoll (n : Stack) (frames : List (List UInt8)) : Stack := frames.foldl handleRx n

/-- One turn of the loop that waits for a reply: the frames that `net_poll` drains, the frame that
`vnet_recv` returns afterwards, and the ticks since the request. -/
structure Turn where
  drained : List (List UInt8)
  received : List UInt8
  elapsed : Nat

/-- The polls for which there is time while the gateway is resolved, and the turns for which there
is time while a reply is awaited. -/
structure Attempt where
  resolving : List (List (List UInt8))
  waiting : List Turn

def resolveGateway (n : Stack) : List (List (List UInt8)) → Stack
  | [] => n
  | frames :: rest => if n.haveGwMac then n else resolveGateway (netPoll n frames) rest

/-! ## Address resolution -/

def Stack.gateway (n : Stack) : Option Mac := if n.haveGwMac then some n.gwMac else none

def isArp (frame : List UInt8) : Bool := ld16 frame 12 = be16 etArp

/-- A request for our address. -/
def asksUs (frame : List UInt8) : Bool :=
  42 ≤ frame.length ∧ isArp frame ∧ be16 (ld16 frame 20) = 1 ∧ ipAt frame 38 = ourIp

/-- The address in a reply from the gateway. -/
def gatewayGave (frame : List UInt8) : Option Mac :=
  if 42 ≤ frame.length ∧ isArp frame ∧ be16 (ld16 frame 20) = 2 ∧ ipAt frame 28 = gwIp then
    some (macAt frame 22)
  else none

/-- The reply to the sender of a request, in network byte order. -/
def arpAnswer (mac : Mac) (frame : List UInt8) : List UInt8 :=
  (macAt frame 22).bytes ++ mac.bytes ++ [8, 6, 0, 1, 8, 0, 6, 4, 0, 2] ++ mac.bytes ++
    ourIp.bytes ++ (macAt frame 22).bytes ++ (ipAt frame 28).bytes

/-- What the frames `fs` did to ARP between two states of the stack. -/
structure Resolved (n n' : Stack) (fs : List (List UInt8)) : Prop where
  mac : n'.mac = n.mac
  gateway : n'.gateway = (fs.reverse.findSome? gatewayGave).or n.gateway
  answers : n'.sent.filter isArp = n.sent.filter isArp ++ (fs.filter asksUs).map (arpAnswer n.mac)

namespace Resolved

variable {n n' n'' : Stack} {frame : List UInt8} {fs : List (List UInt8)}

lemma none (hask : asksUs frame = false) (hgave : gatewayGave frame = .none) :
  Resolved n n [frame] := by
  constructor <;> simp [hask, hgave]

lemma cons (h : Resolved n n' [frame]) (hrest : Resolved n' n'' fs) :
  Resolved n n'' (frame :: fs) := by
  refine ⟨hrest.mac.trans h.mac, ?_, ?_⟩
  · simp [hrest.gateway, h.gateway, reverse_cons, findSome?_append, Option.or_assoc]
  · rw [hrest.answers, h.answers, h.mac, append_assoc, ← map_append, ← filter_append]
    rfl

lemma arp (harp : isArp frame = true) (hlen : 42 ≤ frame.length) :
  Resolved n (handleArp n (frame.drop 14)) [frame] := by
  have hfields : handleArp n (frame.drop 14) =
      (let n := if be16 (ld16 frame 20) = 1 ∧ ipAt frame 38 = ourIp then
        { n with sent := n.sent ++ [arpAnswer n.mac frame] } else n
      if be16 (ld16 frame 20) = 2 ∧ ipAt frame 28 = gwIp then
        { n with gwMac := macAt frame 22, haveGwMac := true } else n) := by
    simp only [handleArp, ld16, ipAt, macAt, getD_drop, Nat.reduceAdd]
    rfl
  have hanswer : isArp (arpAnswer n.mac frame) = true :=
    decide_eq_true (show (8 : UInt8).toNat + 256 * (6 : UInt8).toNat = be16 etArp by decide)
  rw [hfields]
  split_ifs with hask hgave hgave <;>
    constructor <;> simp_all [asksUs, gatewayGave, Stack.gateway]

lemma ip (packet : List UInt8) (hask : asksUs frame = false)
  (hgave : gatewayGave frame = .none) : Resolved n (handleIp n packet) [frame] := by
  unfold handleIp
  dsimp only
  split_ifs with hproto hdst hecho
  any_goals exact .none hask hgave
  refine ⟨rfl, by simp only [reverse_singleton, findSome?_singleton, hgave]; rfl, ?_⟩
  have hframe : ∀ n dst body, isArp (ipFrame n dst ipProtoIcmp body) = false := by
    intro n dst body
    rw [isArp, ipFrame_ipv4]
    decide
  show (n.sent ++ [ipFrame _ _ _ _]).filter isArp = _
  rw [filter_append, filter_singleton, hframe, filter_singleton, hask]
  rfl

lemma step (n : Stack) (frame : List UInt8) : Resolved n (handleRx n frame) [frame] := by
  unfold handleRx
  split_ifs with hshort harp hip
  · exact .none (by grind [asksUs]) (by grind [gatewayGave])
  · exact .arp (decide_eq_true harp.1) harp.2
  · have hother : ¬ isArp frame := by
      rw [isArp, hip.1]
      decide
    exact .ip _ (by grind [asksUs]) (by grind [gatewayGave])
  · exact .none (by grind [asksUs, isArp]) (by grind [gatewayGave, isArp])

end Resolved

lemma resolved_netPoll (n : Stack) (frames : List (List UInt8)) :
    Resolved n (netPoll n frames) frames := by
  induction frames generalizing n with
  | nil => constructor <;> simp [netPoll]
  | cons frame frames ih => exact (Resolved.step n frame).cons (ih _)

/-- After any frames, the gateway has the address it gave last, and the ARP frames sent are one
reply for each request for our address, in their order. -/
theorem arp_resolves (n : Stack) (frames : List (List UInt8)) :
  (netPoll n frames).gateway = (frames.reverse.findSome? gatewayGave).or n.gateway ∧
  (netPoll n frames).sent.filter isArp =
    n.sent.filter isArp ++ (frames.filter asksUs).map (arpAnswer n.mac) := by
  have h := resolved_netPoll n frames
  exact ⟨h.gateway, h.answers⟩

/-- A frame among these gives the address of the gateway. -/
def Gives (frames : List (List UInt8)) : Prop := ∃ frame ∈ frames, (gatewayGave frame).isSome

lemma haveGwMac_iff (n : Stack) : n.haveGwMac = true ↔ n.gateway.isSome = true := by
  rw [Stack.gateway]
  split_ifs with h <;> simp [h]

lemma haveGwMac_netPoll (n : Stack) (frames : List (List UInt8)) :
    (netPoll n frames).haveGwMac = true ↔ n.haveGwMac = true ∨ Gives frames := by
  rw [haveGwMac_iff, (resolved_netPoll n frames).gateway, Option.isSome_or, Bool.or_eq_true,
    findSome?_isSome_iff, ← haveGwMac_iff, or_comm]
  simp [Gives]

lemma haveGwMac_resolveGateway (polls : List (List (List UInt8))) (n : Stack) :
    (resolveGateway n polls).haveGwMac = true ↔
      n.haveGwMac = true ∨ ∃ frames ∈ polls, Gives frames := by
  induction polls generalizing n with
  | nil => simp [resolveGateway]
  | cons frames rest ih =>
    rw [resolveGateway]
    split_ifs with hhave
    · simp [hhave]
    · rw [ih, haveGwMac_netPoll, or_assoc, exists_mem_cons_iff]

/-! ## Pinging -/

/-- The line for a reply, with four numbers for the address. -/
def replyText (a b c d elapsed : Nat) : List UInt8 :=
  ascii "  reply from " ++ decText a ++ [46] ++ decText b ++ [46] ++ decText c ++ [46] ++
    decText d ++ ascii ": time " ++ decText (elapsed % 2 ^ 32 * 10 % 2 ^ 32) ++ ascii " ms"

def replyLine (ipBe elapsed : Nat) : List UInt8 :=
  replyText (ipBe >>> 24 &&& 0xFF) (ipBe >>> 16 &&& 0xFF) (ipBe >>> 8 &&& 0xFF) (ipBe &&& 0xFF)
    elapsed

def timeoutLine : List UInt8 := ascii "  request timeout"

def reportLine (ipBe : Nat) : Option Nat → List UInt8
  | some elapsed => replyLine ipBe elapsed
  | none => timeoutLine

def answersRequest (frame : List UInt8) (i : Nat) : Bool :=
  14 + 20 + 8 < frame.length ∧ frame.getD 34 0 = 0 ∧ frame.getD 41 0 = UInt8.ofNat i

def awaitReply (i : Nat) : List Turn → Stack → Stack × Option Nat
  | [], n => (n, none)
  | turn :: rest, n =>
    if answersRequest turn.received i then (netPoll n turn.drained, some turn.elapsed)
    else awaitReply i rest (netPoll n turn.drained)

structure Ping where
  stack : Stack
  console : List (List UInt8)
  replies : Nat
  requests : List (List UInt8)

def findGateway (n : Stack) (polls : List (List (List UInt8))) : Stack :=
  if n.haveGwMac then n
  else resolveGateway (arpSend n 1 ⟨0, 0, 0, 0, 0, 0⟩ gwIp) polls

def pingOnce (ipBe i : Nat) (p : Ping) (att : Attempt) : Ping :=
  let n := findGateway p.stack att.resolving
  if n.haveGwMac then
    let asked := icmpEchoRequest n ipBe (i % 2 ^ 16)
    let reply := awaitReply i att.waiting asked
    { stack := reply.1
      console := p.console ++ [reportLine ipBe reply.2]
      replies := p.replies + (if reply.2.isSome then 1 else 0)
      requests := p.requests ++ transmitted n asked }
  else { p with stack := n }

def pingFrom (ipBe : Nat) : Nat → Ping → List Attempt → Ping
  | _, p, [] => p
  | i, p, att :: rest => pingFrom ipBe (i + 1) (pingOnce ipBe i p att) rest

/-- `net_ping`, with one attempt for each of the `count` requests. -/
def netPing (n : Stack) (ipBe : Nat) (attempts : List Attempt) : Ping :=
  pingFrom ipBe 1 ⟨n, [], 0, []⟩ attempts

/-- The destination field of a frame's IPv4 header. -/
def destinationOf (frame : List UInt8) : Ip := ipAt (ipHeaderOf frame) 16

lemma destinationOf_ipFrame (n : Stack) (dst : Ip) (proto : UInt8) (body : List UInt8) :
  destinationOf (ipFrame n dst proto body) = dst := by
  rfl

structure Addressed (ipBe : Nat) (p : Ping) : Prop where
  requests : ∀ frame ∈ p.requests, destinationOf frame = ipOfWord ipBe
  console : ∀ line ∈ p.console, line = timeoutLine ∨ ∃ elapsed, line = replyLine ipBe elapsed

lemma Addressed.pingOnce {ipBe : Nat} {p : Ping} (h : Addressed ipBe p) (i : Nat)
  (att : Attempt) : Addressed ipBe (pingOnce ipBe i p att) := by
  unfold Net.pingOnce
  by_cases hgateway : (findGateway p.stack att.resolving).haveGwMac = true
  · simp only [if_pos hgateway]
    generalize (awaitReply i att.waiting _).2 = reply
    refine ⟨?_, ?_⟩
    · intro frame hframe
      rcases mem_append.mp hframe with hold | hnew
      · exact h.requests frame hold
      rw [icmpEchoRequest, transmitted_ipSend, mem_singleton] at hnew
      rw [hnew, destinationOf_ipFrame]
    intro line hline
    rcases mem_append.mp hline with hold | hnew
    · exact h.console line hold
    rw [mem_singleton.mp hnew]
    cases reply with
    | none => exact .inl rfl
    | some elapsed => exact .inr ⟨elapsed, rfl⟩
  simp only [if_neg hgateway]
  exact ⟨h.requests, h.console⟩

lemma Addressed.pingFrom {ipBe : Nat} {p : Ping} (h : Addressed ipBe p) (i : Nat)
  (attempts : List Attempt) : Addressed ipBe (pingFrom ipBe i p attempts) := by
  induction attempts generalizing i p with
  | nil => exact h
  | cons att rest ih => exact ih (h.pingOnce i att) (i + 1)

lemma addressed_netPing (n : Stack) (ipBe : Nat) (attempts : List Attempt) :
  Addressed ipBe (netPing n ipBe attempts) :=
  Addressed.pingFrom ⟨by simp, by simp⟩ 1 attempts

/-- Some attempt finds the gateway: it is known before the first one, or a frame that is polled
while it is being resolved gives its address. -/
def Reaches (n : Stack) (attempts : List Attempt) : Prop :=
  ∃ att ∈ attempts, n.haveGwMac = true ∨ ∃ frames ∈ att.resolving, Gives frames

lemma reaches_cons (n : Stack) (att : Attempt) (rest : List Attempt) : Reaches n (att :: rest) ↔
    (n.haveGwMac = true ∨ ∃ frames ∈ att.resolving, Gives frames) ∨ Reaches n rest :=
  exists_mem_cons_iff ..

lemma haveGwMac_findGateway (n : Stack) (polls : List (List (List UInt8))) :
    (findGateway n polls).haveGwMac = true ↔
      n.haveGwMac = true ∨ ∃ frames ∈ polls, Gives frames := by
  rw [findGateway]
  split_ifs with hhave
  · simp [hhave]
  · exact haveGwMac_resolveGateway polls _

lemma requests_pingFrom_eq_nil_iff (ipBe : Nat) (attempts : List Attempt) : ∀ (i : Nat) (p : Ping),
    (pingFrom ipBe i p attempts).requests = [] ↔
      p.requests = [] ∧ ¬ Reaches p.stack attempts := by
  induction attempts with
  | nil => simp [pingFrom, Reaches]
  | cons att rest ih =>
    intro i p
    have hfound := haveGwMac_findGateway p.stack att.resolving
    rw [pingFrom, ih, reaches_cons, ← hfound]
    by_cases hgateway : (findGateway p.stack att.resolving).haveGwMac = true
    · simp [pingOnce, hgateway, icmpEchoRequest, transmitted_ipSend]
    · have hnone : p.stack.haveGwMac = false := by
        simpa using fun hhave => hgateway (hfound.mpr (.inl hhave))
      simp [pingOnce, hgateway, Reaches, hnone]

lemma requests_netPing_eq_nil_iff (n : Stack) (ipBe : Nat) (attempts : List Attempt) :
    (netPing n ipBe attempts).requests = [] ↔ ¬ Reaches n attempts := by
  rw [netPing, requests_pingFrom_eq_nil_iff]
  exact and_iff_right rfl

/-! ## Octets -/

section
variable (a b c d : UInt8)

lemma ipOfWord_packed : ipOfWord (packed a.toNat b.toNat c.toNat d.toNat) = ⟨d, c, b, a⟩ := by
  have ha := a.toNat_lt
  have hb := b.toNat_lt
  have hc := c.toNat_lt
  have hd := d.toNat_lt
  have hoctet : ∀ (v : Nat) (o : UInt8), v % 256 = o.toNat → UInt8.ofNat v = o := by
    intro v o hv
    rw [← UInt8.toNat_inj, UInt8.toNat_ofNat']
    exact hv
  unfold ipOfWord packed
  rw [hoctet _ d (by omega), hoctet _ c (by omega), hoctet _ b (by omega), hoctet _ a (by omega)]

lemma replyLine_packed (elapsed : Nat) :
  replyLine (packed a.toNat b.toNat c.toNat d.toNat) elapsed =
    replyText a.toNat b.toNat c.toNat d.toNat elapsed := by
  have ha := a.toNat_lt
  have hb := b.toNat_lt
  have hc := c.toNat_lt
  have hd := d.toNat_lt
  have hmask : ∀ x : Nat, x &&& 0xFF = x % 2 ^ 8 := fun x => Nat.and_two_pow_sub_one_eq_mod x 8
  unfold replyLine packed
  simp only [hmask, Nat.shiftRight_eq_div_pow]
  congr 1 <;> omega

end

/-- Every line printed for a reply names the octets in order; the requests go to them in order
exactly when the octets read the same backwards, or when no attempt finds the gateway. -/
theorem ping_reaches_typed_address_iff (s : List UInt8) (a b c d : UInt8)
    (hquad : Quad (cstr s) a.toNat b.toNat c.toNat d.toNat) (haccepted : netParseIp s ≠ 0)
    (n : Stack) (attempts : List Attempt) :
    ((∀ frame ∈ (netPing n (netParseIp s) attempts).requests,
        destinationOf frame = ⟨a, b, c, d⟩) ↔
      ¬ Reaches n attempts ∨ (a = d ∧ b = c)) ∧
    ∀ line ∈ (netPing n (netParseIp s) attempts).console, line = timeoutLine ∨
      ∃ elapsed, line = replyText a.toNat b.toNat c.toNat d.toNat elapsed := by
  have hword := netParseIp_eq_packed hquad haccepted
  rw [← requests_netPing_eq_nil_iff n (netParseIp s)]
  obtain ⟨hrequests, hconsole⟩ := addressed_netPing n (netParseIp s) attempts
  rw [hword] at hrequests hconsole ⊢
  rw [ipOfWord_packed] at hrequests
  generalize netPing n (packed a.toNat b.toNat c.toNat d.toNat) attempts = p at *
  refine ⟨⟨?_, ?_⟩, ?_⟩
  · intro hall
    cases hframes : p.requests with
    | nil => exact .inl rfl
    | cons frame rest =>
      have hmem := hframes ▸ mem_cons_self
      have heq := (hrequests frame hmem).symm.trans (hall frame hmem)
      obtain ⟨hda, hcb, _, _⟩ := Ip.mk.inj heq
      exact .inr ⟨hda.symm, hcb.symm⟩
  · rintro (hnone | ⟨rfl, rfl⟩) frame hframe
    · rw [hnone] at hframe
      cases hframe
    · exact hrequests frame hframe
  intro line hline
  rcases hconsole line hline with htimeout | ⟨elapsed, hreply⟩
  · exact .inl htimeout
  · exact .inr ⟨elapsed, hreply.trans (replyLine_packed a b c d elapsed)⟩

def resolvedStack : Stack where
  mac := ⟨2, 0, 0, 0, 0, 1⟩
  gwMac := ⟨2, 0, 0, 0, 0, 2⟩
  haveGwMac := true
  body _ := 0
  sent := []

def palindromeText : List UInt8 := [49, 48, 46, 48, 46, 48, 46, 49, 48]

lemma quad_palindrome : Quad (cstr palindromeText) 10 0 0 10 :=
  ⟨[49, 48], [48], [48], [49, 48], by decide, by decide, by decide, by decide, by decide⟩

theorem ping_reaches_typed_address_palindrome : netParseIp palindromeText ≠ 0 ∧
  ∀ frame ∈ (netPing resolvedStack (netParseIp palindromeText) [⟨[], []⟩]).requests,
    destinationOf frame = ⟨10, 0, 0, 10⟩ := by
  have haccepted : netParseIp palindromeText ≠ 0 := by decide
  exact ⟨haccepted, (ping_reaches_typed_address_iff _ 10 0 0 10 quad_palindrome haccepted
    resolvedStack [⟨[], []⟩]).1.mpr (.inr ⟨rfl, rfl⟩)⟩

def firstReply : List UInt8 := List.replicate 41 0 ++ [1, 0]

/-- A ping of `10.0.2.2` goes to `2.2.0.10`; the reply is reported from `10.0.2.2`. -/
theorem ping_goes_backwards :
  (netPing resolvedStack (netParseIp gatewayText) [⟨[], [⟨[], firstReply, 0⟩]⟩]).requests.map
      destinationOf = [⟨2, 2, 0, 10⟩] ∧
    (netPing resolvedStack (netParseIp gatewayText) [⟨[], [⟨[], firstReply, 0⟩]⟩]).console =
      [replyText 10 0 2 2 0] := by
  refine ⟨by decide +kernel, ?_⟩
  have hline := replyLine_packed 10 0 2 2 0
  exact congrArg (fun line => [line]) hline

/-! ## Counting replies -/

structure ReplyTo (i : Nat) (frame : List UInt8) : Prop where
  ipv4 : ld16 frame 12 = be16 etIp4
  version : (frame.getD 14 0).toNat / 16 = 4
  header : 20 ≤ headerLen frame
  icmpHeader : headerLen frame + 8 ≤ totalLen frame
  received : 14 + totalLen frame ≤ frame.length
  icmp : frame.getD 23 0 = ipProtoIcmp
  ours : ipAt frame 30 = ourIp
  type : (message frame).getD 0 0 = 0
  number : ((message frame).getD 6 0).toNat * 256 + ((message frame).getD 7 0).toNat = i % 2 ^ 16

/-- A frame of more than 42 bytes with a 0 at byte 34 and the low byte of the number at byte 41. -/
structure Resembles (i : Nat) (frame : List UInt8) : Prop where
  length : 42 < frame.length
  type : frame.getD 34 0 = 0
  low : (frame.getD 41 0).toNat = i % 256

lemma answersRequest_iff (frame : List UInt8) (i : Nat) :
    answersRequest frame i = true ↔ Resembles i frame := by
  have hlow : frame.getD 41 0 = UInt8.ofNat i ↔ (frame.getD 41 0).toNat = i % 256 := by
    rw [← UInt8.toNat_inj, UInt8.toNat_ofNat']
  rw [answersRequest, decide_eq_true_iff, hlow]
  exact ⟨fun ⟨hlen, htype, hnum⟩ => ⟨hlen, htype, hnum⟩, fun ⟨hlen, htype, hnum⟩ =>
    ⟨hlen, htype, hnum⟩⟩

/-- Behind a header without options the two bytes are those of the ICMP message. -/
lemma ReplyTo.resembles {i : Nat} {frame : List UInt8} (h : ReplyTo i frame)
    (hplain : headerLen frame = 20) (hlen : 42 < frame.length) : Resembles i frame := by
  have hfits := h.icmpHeader
  have hbyte : ∀ k < 8, (message frame).getD k 0 = frame.getD (34 + k) 0 := by
    intro k hk
    rw [message, hplain, getD_drop, getD_take (by omega), getD_drop, ← Nat.add_assoc]
  refine ⟨hlen, (hbyte 0 (by decide)).symm.trans h.type, ?_⟩
  have hnumber := h.number
  rw [hbyte 6 (by decide), hbyte 7 (by decide)] at hnumber
  have hlow := (frame.getD (34 + 7) 0).toNat_lt
  show (frame.getD (34 + 7) 0).toNat = i % 256
  omega

def turnsRun (i : Nat) : List Turn → List Turn
  | [] => []
  | turn :: rest =>
    if answersRequest turn.received i then [turn] else turn :: turnsRun i rest

/-- A request that was sent, and the turns that the loop ran for it. -/
structure Wait where
  number : Nat
  turns : List Turn

def waitsFrom (ipBe : Nat) : Nat → Ping → List Attempt → List Wait
  | _, _, [] => []
  | i, p, att :: rest =>
    (if (findGateway p.stack att.resolving).haveGwMac then [⟨i, turnsRun i att.waiting⟩] else []) ++
      waitsFrom ipBe (i + 1) (pingOnce ipBe i p att) rest

def waits (n : Stack) (ipBe : Nat) (attempts : List Attempt) : List Wait :=
  waitsFrom ipBe 1 ⟨n, [], 0, []⟩ attempts

namespace Wait

def counted (w : Wait) : Bool := w.turns.any fun turn => answersRequest turn.received w.number

/-- A reply to the request comes in during the wait. -/
def Arrives (w : Wait) : Prop :=
  ∃ turn ∈ w.turns, ∃ frame ∈ turn.received :: turn.drained, ReplyTo w.number frame

/-- `net_poll` takes a reply to the request. -/
def Drops (w : Wait) : Prop :=
  ∃ turn ∈ w.turns, ∃ frame ∈ turn.drained, ReplyTo w.number frame

/-- A reply that `vnet_recv` returns has an IPv4 header without options and is longer than 42
bytes, or some frame of the wait resembles one; and where a frame only resembles a reply, a reply
is returned too. -/
structure Recognised (w : Wait) : Prop where
  seen : ∀ turn ∈ w.turns, ReplyTo w.number turn.received →
    (headerLen turn.received = 20 ∧ 42 < turn.received.length) ∨
      ∃ turn' ∈ w.turns, Resembles w.number turn'.received
  meant : ∀ turn ∈ w.turns, Resembles w.number turn.received →
    ∃ turn' ∈ w.turns, ReplyTo w.number turn'.received

lemma recognised_iff (w : Wait) : w.Recognised ↔
    ((∃ turn ∈ w.turns, answersRequest turn.received w.number = true) ↔
      ∃ turn ∈ w.turns, ReplyTo w.number turn.received) := by
  simp only [answersRequest_iff]
  constructor
  · intro ⟨hseen, hmeant⟩
    refine ⟨fun ⟨turn, hturn, hlike⟩ => hmeant turn hturn hlike, fun ⟨turn, hturn, hreply⟩ => ?_⟩
    rcases hseen turn hturn hreply with ⟨hplain, hlen⟩ | hother
    · exact ⟨turn, hturn, hreply.resembles hplain hlen⟩
    · exact hother
  · intro h
    exact ⟨fun turn hturn hreply => .inr (h.mpr ⟨turn, hturn, hreply⟩),
      fun turn hturn hlike => h.mp ⟨turn, hturn, hlike⟩⟩

lemma counts_arrivals_iff (w : Wait) :
    (w.counted = true ↔ w.Arrives) ∧ ¬ w.Drops ↔ ¬ w.Drops ∧ w.Recognised := by
  rw [and_comm]
  refine and_congr_right fun hkept => ?_
  have harrives : w.Arrives ↔ ∃ turn ∈ w.turns, ReplyTo w.number turn.received := by
    constructor
    · rintro ⟨turn, hturn, frame, hframe, hreply⟩
      rcases mem_cons.mp hframe with rfl | hdrained
      · exact ⟨turn, hturn, hreply⟩
      · exact absurd ⟨turn, hturn, frame, hdrained, hreply⟩ hkept
    rintro ⟨turn, hturn, hreply⟩
    exact ⟨turn, hturn, _, mem_cons_self, hreply⟩
  rw [harrives, counted, any_eq_true, recognised_iff]

end Wait

lemma awaitReply_isSome (i : Nat) (turns : List Turn) (n : Stack) :
  (awaitReply i turns n).2.isSome = (Wait.mk i (turnsRun i turns)).counted := by
  induction turns generalizing n with
  | nil => rfl
  | cons turn rest ih =>
    rw [awaitReply, turnsRun]
    split_ifs with hanswers
    · simp [Wait.counted, hanswers]
    rw [ih, Wait.counted, Wait.counted, any_cons, Bool.eq_false_iff.mpr hanswers,
      Bool.false_or]

lemma replies_pingFrom (ipBe : Nat) (attempts : List Attempt) : ∀ (i : Nat) (p : Ping),
  (pingFrom ipBe i p attempts).replies =
    p.replies + (waitsFrom ipBe i p attempts).countP Wait.counted := by
  induction attempts with
  | nil => exact fun _ _ => rfl
  | cons att rest ih =>
    intro i p
    have honce : (pingOnce ipBe i p att).replies = p.replies +
        (if (findGateway p.stack att.resolving).haveGwMac then
          [Wait.mk i (turnsRun i att.waiting)] else []).countP Wait.counted := by
      unfold pingOnce
      by_cases hgateway : (findGateway p.stack att.resolving).haveGwMac = true
      · simp only [if_pos hgateway, awaitReply_isSome, countP_singleton]
      · simp only [if_neg hgateway, countP_nil, Nat.add_zero]
    rw [pingFrom, waitsFrom, countP_append, ih, honce, Nat.add_assoc]

/-- `net_ping` counts exactly the replies that come in, and drops none, exactly if `net_poll`
takes none of them, and the frames that `vnet_recv` returns are recognised for what they are. -/
theorem ping_counts_arrivals_iff (n : Stack) (ipBe : Nat) (attempts : List Attempt) :
  (netPing n ipBe attempts).replies = (waits n ipBe attempts).countP Wait.counted ∧
    ((∀ w ∈ waits n ipBe attempts, (w.counted = true ↔ w.Arrives) ∧ ¬ w.Drops) ↔
      ∀ w ∈ waits n ipBe attempts, ¬ w.Drops ∧ w.Recognised) := by
  refine ⟨?_, forall₂_congr fun w _ => w.counts_arrivals_iff⟩
  rw [netPing, replies_pingFrom, Nat.zero_add, waits]

def gatewayReply : List UInt8 :=
  [2, 0, 0, 0, 0, 1, 2, 0, 0, 0, 0, 2, 8, 0] ++
    [0x45, 0, 0, 29, 0, 0, 0, 0, 64, 1, 0x62, 0xD0, 10, 0, 2, 2, 10, 0, 2, 15] ++
    [0, 0, 0xBE, 0xFE, 0, 0, 0, 1, 65]

/-- The reply is in the queue when `net_poll` runs, and the request times out. -/
theorem drained_reply_not_counted : ReplyTo 1 gatewayReply ∧
    (netPing resolvedStack 0 [⟨[], [⟨[gatewayReply], [], 0⟩]⟩]).replies = 0 ∧
    (netPing resolvedStack 0 [⟨[], [⟨[], gatewayReply, 0⟩]⟩]).replies = 1 :=
  ⟨⟨by decide, by decide, by decide, by decide, by decide, by decide, by decide, by decide,
    by decide⟩, by decide +kernel, by decide +kernel⟩

end Aeos.Net
