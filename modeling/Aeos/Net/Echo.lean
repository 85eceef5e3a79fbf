/-
# Echo requests

What `handle_rx` makes of a frame that carries an echo request. The reply is the request
with a new checksum: its type is still that of a request.
-/

import Aeos.Net.Checksums

namespace Aeos.Net

open Lib List

/-! ## Requests and replies -/

/-- The length of the IPv4 header, options included. -/
def headerLen (frame : List UInt8) : Nat := 4 * ((frame.getD 14 0).toNat % 16)

def totalLen (frame : List UInt8) : Nat :=
  (frame.getD 16 0).toNat * 256 + (frame.getD 17 0).toNat

/-- The message that the two lengths delimit; what follows is padding. -/
def message (frame : List UInt8) : List UInt8 :=
  ((frame.drop 14).take (totalLen frame)).drop (headerLen frame)

/-- An Ethernet frame with an echo request to our address. -/
structure EchoRequest (frame : List UInt8) : Prop where
  ipv4 : ld16 frame 12 = be16 etIp4
  version : (frame.getD 14 0).toNat / 16 = 4
  header : 20 ≤ headerLen frame
  icmpHeader : headerLen frame + 8 ≤ totalLen frame
  received : 14 + totalLen frame ≤ frame.length
  icmp : frame.getD 23 0 = ipProtoIcmp
  ours : ipAt frame 30 = ourIp
  echo : (message frame).getD 0 0 = 8

/-- An ICMP message to the sender of a frame, with the identifier, the sequence number and the
payload of its message. -/
structure Echoes (frame reply : List UInt8) : Prop where
  ipv4 : ld16 reply 12 = be16 etIp4
  icmp : reply.getD 23 0 = ipProtoIcmp
  sender : ipAt reply 30 = ipAt frame 26
  data : ∀ i, 4 ≤ i → i < min 1466 (message frame).length →
    (icmpOf reply).getD i 0 = (message frame).getD i 0

structure EchoReply (frame reply : List UInt8) : Prop extends Echoes frame reply where
  type : (icmpOf reply).getD 0 0 = 0
  length : (icmpOf reply).length = min 1466 (message frame).length

variable {frame : List UInt8} {i : Nat} {n : Stack}

section
variable (n : Stack) (dst : Ip) (proto : UInt8) (body : List UInt8)

lemma ipFrame_ipv4 : ld16 (ipFrame n dst proto body) 12 = be16 etIp4 := by
  show (UInt8.ofNat (be16 etIp4)).toNat + 256 * (UInt8.ofNat (be16 etIp4 / 256)).toNat = _
  decide

lemma ipFrame_proto : (ipFrame n dst proto body).getD 23 0 = proto := by
  rfl

lemma ipFrame_dst : ipAt (ipFrame n dst proto body) 30 = dst := by
  rfl

end

lemma length_replyMessage (n : Stack) (req : List UInt8) (v : Nat) :
  (replyMessage n req v).length = 8 + min 1492 req.length := by
  simp [replyMessage, firstBytes]

lemma getD_replyMessage (n : Stack) (req : List UInt8) (v : Nat) (hi : i < min 1492 req.length)
  (htwo : i ≠ 2) (hthree : i ≠ 3) : (replyMessage n req v).getD i 0 = req.getD i 0 := by
  have hlen : (req.take 1492).length = min 1492 req.length := length_take
  rw [replyMessage, firstBytes, getD_eq_getElem _ _ (by simp; omega), getElem_map,
    getElem_range, setChecksum, Function.update_of_ne hthree, Function.update_of_ne htwo,
    overwrite_zero (by omega)]
  exact getD_take (by omega)

/-! ## Requests as `handle_rx` reads them -/

section
variable (h : EchoRequest frame)
include h

lemma handleRx_request : handleRx n frame =
    if frame.getD 34 0 = 8 then icmpReply n (ipAt frame 26) (frame.drop 34) else n := by
  have hlen : 42 ≤ frame.length := by
    have := h.header
    have := h.icmpHeader
    have := h.received
    omega
  have hip : ∀ k, ipAt (frame.drop 14) k = ipAt frame (14 + k) := by
    intro k
    simp only [ipAt, getD_drop]
    rfl
  have hbody : (frame.drop 14).drop 20 = frame.drop 34 := drop_drop
  rw [handleRx, if_neg (by omega), if_neg, if_pos ⟨h.ipv4, by omega⟩, handleIp, getD_drop,
    if_neg (not_not.2 h.icmp), hip, if_neg (not_not.2 h.ours), hip, hbody]
  · have hicmp : 8 ≤ frame.length - 34 := by omega
    simp only [length_drop, getD_drop, hicmp, true_and]
  rw [h.ipv4]
  rintro ⟨htype, -⟩
  exact absurd htype (by decide)

lemma length_message : (message frame).length = totalLen frame - headerLen frame := by
  have := h.received
  rw [message, length_drop, length_take, length_drop]
  omega

lemma getD_message (hi : i < (message frame).length) :
  (message frame).getD i 0 = frame.getD (14 + headerLen frame + i) 0 := by
  rw [length_message h] at hi
  rw [message, getD_drop, getD_take (by omega), getD_drop, Nat.add_assoc]

lemma transmitted_request : transmitted n (handleRx n frame) = if frame.getD 34 0 = 8 then
      [ipFrame n (ipAt frame 26) ipProtoIcmp (replyMessage n (frame.drop 34)
        (cksum (replyMessage n (frame.drop 34) 0)))] else [] := by
  rw [handleRx_request h, apply_ite (transmitted n), transmitted_icmpReply]
  exact congrArg _ drop_length

end

variable {req : List UInt8}

lemma length_sent {dst : Ip} {v : Nat} :
  (icmpOf (ipFrame n dst ipProtoIcmp (replyMessage n req v))).length =
    min 1466 (8 + req.length) := by
  rw [icmpOf_ipFrame, length_take, length_replyMessage]
  omega

lemma getD_sent {dst : Ip} {v : Nat} (hi : i < 1466) (hreq : i < req.length)
  (htwo : i ≠ 2) (hthree : i ≠ 3) :
  (icmpOf (ipFrame n dst ipProtoIcmp (replyMessage n req v))).getD i 0 = req.getD i 0 := by
  rw [icmpOf_ipFrame, getD_take hi]
  exact getD_replyMessage n req v (by omega) htwo hthree

lemma echoes_request (h : EchoRequest frame) (hopts : headerLen frame = 20) (v : Nat) : Echoes frame
    (ipFrame n (ipAt frame 26) ipProtoIcmp (replyMessage n (frame.drop 34) v)) where
  ipv4 := ipFrame_ipv4 ..
  icmp := ipFrame_proto ..
  sender := ipFrame_dst ..
  data := by
    intro i hfour hi
    have hreceived := h.received
    have hlen := length_message h
    rw [getD_sent (by omega) (by rw [length_drop]; omega) (by omega) (by omega), getD_drop,
      getD_message h (by omega), hopts]

/-- What is sent for an echo request has type 8 and, but for a full frame, another length, so that
it is never the echo reply. A request without options is sent back to its sender, with its
identifier, sequence number and payload. -/
theorem echo_requests_sent_back (n : Stack) (frame : List UInt8) (h : EchoRequest frame) :
  (∀ reply ∈ transmitted n (handleRx n frame), (icmpOf reply).getD 0 0 = 8 ∧
    ((icmpOf reply).length = min 1466 (message frame).length ↔
      1466 ≤ (message frame).length) ∧ ¬ EchoReply frame reply) ∧
  (transmitted n (handleRx n frame) = [] ↔ frame.getD 34 0 ≠ 8) ∧
  (headerLen frame = 20 →
    ∃ reply, transmitted n (handleRx n frame) = [reply] ∧ Echoes frame reply) := by
  have hheader := h.header
  have hicmp := h.icmpHeader
  have hreceived := h.received
  have hlen := length_message h
  rw [transmitted_request h]
  refine ⟨?_, ?_, ?_⟩
  · intro reply hreply
    split at hreply
    · next htype =>
        rw [mem_singleton] at hreply
        have hzero : (icmpOf reply).getD 0 0 = 8 := by
          rw [hreply, getD_sent (by decide) (by rw [length_drop]; omega) (by decide)
            (by decide), getD_drop]
          exact htype
        refine ⟨hzero, ?_, fun hrep => ?_⟩
        · rw [hreply, length_sent, length_drop]
          omega
        · exact absurd (hzero.symm.trans hrep.type) (by decide)
    · exact absurd hreply not_mem_nil
  · split
    · next htype => exact iff_of_false (cons_ne_nil _ _) (not_not.2 htype)
    · next htype => exact iff_of_true rfl htype
  intro hopts
  have htype : frame.getD 34 0 = 8 := by
    rw [← h.echo, getD_message h (by omega), hopts]
  rw [if_pos htype]
  exact ⟨_, rfl, echoes_request h hopts _⟩

def gatewayPing : List UInt8 :=
  [0x52, 0x54, 0, 0x12, 0x34, 0x56, 0x52, 0x55, 10, 0, 2, 2, 8, 0,
    0x45, 0, 0, 36, 0, 1, 0, 0, 64, 1, 0x62, 0xC8, 10, 0, 2, 2, 10, 0, 2, 15,
    8, 0, 0xE7, 0xE9, 0, 1, 0, 1, 1, 2, 3, 4, 5, 6, 7, 8]

lemma gatewayPing_request : EchoRequest gatewayPing where
  ipv4 := by decide
  version := by decide
  header := by decide
  icmpHeader := by decide
  received := by decide
  icmp := by decide
  ours := by decide
  echo := by decide

/-- The gateway is sent its own request back. -/
theorem echo_requests_sent_back_gateway : EchoRequest gatewayPing ∧
    ∃ reply, transmitted started (handleRx started gatewayPing) = [reply] ∧
      Echoes gatewayPing reply :=
  ⟨gatewayPing_request,
    (echo_requests_sent_back started gatewayPing gatewayPing_request).2.2 (by decide)⟩

/-- What is sent for that request is no echo reply: its type is 8, and it has 24 bytes where
the request has 16. -/
theorem gateway_not_answered : EchoRequest gatewayPing ∧
    ∃ reply, transmitted started (handleRx started gatewayPing) = [reply] ∧
      (icmpOf reply).getD 0 0 = 8 ∧ (icmpOf reply).length = 24 ∧
      (message gatewayPing).length = 16 ∧ ¬ EchoReply gatewayPing reply := by
  have htype : gatewayPing.getD 34 0 = 8 := by decide
  refine ⟨gatewayPing_request, _, (transmitted_request gatewayPing_request).trans (if_pos htype),
    by decide +kernel, by decide +kernel, by decide, fun hreply => ?_⟩
  exact absurd hreply.type (by decide +kernel)

end Aeos.Net
