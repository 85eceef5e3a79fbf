/-
# The buffers of the network stack

`handle_rx` and what it calls, byte by byte over the buffers of `kernel/net.c`. Each of the
three layers adds a header and clips at a limit of its own; put together, no length makes them
leave their buffers.
-/

import Aeos.Lib.Buffers
import Aeos.Net.Model

namespace Aeos.Net.Bytewise

open Lib Lib.LogM Lib.Buffered

inductive Buffer
  /-- The frame `handle_rx` is called with. -/
  | rx
  /-- `eh`, `a` and `ih` of `handle_rx`. -/
  | eh
  | arpIn
  | ih
  /-- `a` of `arp_send`. -/
  | arp
  /-- `pkt` of `ip_send`. -/
  | pkt
  /-- `frame` of `eth_send`. -/
  | frame
  /-- `body` of `icmp_reply`. -/
  | body
  /-- `vn.mac`. -/
  | mac
  | gwMac
  | ourIp
  | gwIp
  | bcast
  deriving DecidableEq

def vnetEthMtu : Nat := 1500

/-- The sizes of the buffers, with a frame of `n` bytes. -/
def capacity (n : Nat) : Buffer → Nat
  | .rx => n
  | .eh => 14
  | .arpIn => 28
  | .ih => 20
  | .arp => 28
  | .pkt => 1500
  | .frame => vnetEthMtu
  | .body => 1500
  | .mac => 6
  | .gwMac => 6
  | .ourIp => 4
  | .gwIp => 4
  | .bcast => 6

/-- The variables that are not buffers: `have_gw_mac`, and what the device was given. -/
structure Vars where
  haveGwMac : Bool
  sent : List (List UInt8)

abbrev Memory : Type := Store Buffer UInt8 Vars

abbrev Prog (α : Type) : Type := Buffered Buffer UInt8 Vars α

/-! ## Transmitting -/

def vnetGetMac (out : Ptr Buffer) : Prog Unit := copy out ⟨.mac, 0⟩ 6

def vnetSend (p : Ptr Buffer) (len : Nat) : Prog Unit := do
  let bytes ← loads p len
  ask (fun _ => .send len) fun s => ((), { s with vars.sent := s.vars.sent ++ [bytes] })

def load16 (p : Ptr Buffer) : Prog Nat := do
  let bytes ← loads p 2
  pure (ld16 bytes 0)

def cksum (p : Ptr Buffer) (len : Nat) : Prog Nat := do
  let bytes ← loads p len
  pure (Net.cksum bytes)

def ethSend (dst : Ptr Buffer) (type : Nat) (payload : Ptr Buffer) (plen : Nat) : Prog Unit := do
  copy ⟨.frame, 0⟩ dst 6
  vnetGetMac ⟨.frame, 6⟩
  stores ⟨.frame, 12⟩ (le16 (be16 type))
  let plen := if plen > vnetEthMtu - 14 then vnetEthMtu - 14 else plen
  copy ⟨.frame, 14⟩ payload plen
  vnetSend ⟨.frame, 0⟩ (14 + plen)

def arpSend (oper : Nat) (tha tpa : Ptr Buffer) : Prog Unit := do
  stores ⟨.arp, 0⟩ (List.replicate 28 0)
  stores ⟨.arp, 0⟩ (le16 (be16 1))
  stores ⟨.arp, 2⟩ (le16 (be16 etIp4))
  stores ⟨.arp, 4⟩ [6]
  stores ⟨.arp, 5⟩ [4]
  stores ⟨.arp, 6⟩ (le16 (be16 oper))
  vnetGetMac ⟨.arp, 8⟩
  copy ⟨.arp, 14⟩ ⟨.ourIp, 0⟩ 4
  copy ⟨.arp, 18⟩ tha 6
  copy ⟨.arp, 24⟩ tpa 4
  ethSend (if oper = 1 then ⟨.bcast, 0⟩ else tha) etArp ⟨.arp, 0⟩ 28

def ipHeader (dst : Ptr Buffer) (proto : UInt8) (blen : Nat) : Prog Unit := do
  stores ⟨.pkt, 0⟩ (List.replicate 20 0)
  stores ⟨.pkt, 0⟩ [0x45]
  stores ⟨.pkt, 2⟩ (le16 (be16 (20 + blen)))
  stores ⟨.pkt, 4⟩ (le16 (be16 0x1234))
  stores ⟨.pkt, 8⟩ [64]
  stores ⟨.pkt, 9⟩ [proto]
  copy ⟨.pkt, 12⟩ ⟨.ourIp, 0⟩ 4
  copy ⟨.pkt, 16⟩ dst 4

def ipSend (dst : Ptr Buffer) (proto : UInt8) (body : Ptr Buffer) (blen : Nat) : Prog Unit := do
  let blen := if blen > 1500 - 20 then 1500 - 20 else blen
  ipHeader dst proto blen
  let sum ← cksum ⟨.pkt, 0⟩ 20
  stores ⟨.pkt, 10⟩ (le16 sum)
  copy ⟨.pkt, 20⟩ body blen
  let s ← get
  if s.vars.haveGwMac then ethSend ⟨.gwMac, 0⟩ etIp4 ⟨.pkt, 0⟩ (20 + blen)
  else ethSend ⟨.bcast, 0⟩ etIp4 ⟨.pkt, 0⟩ (20 + blen)

def icmpReply (src req : Ptr Buffer) (len : Nat) : Prog Unit := do
  let len := if len > 1500 - 8 then 1500 - 8 else len
  copy ⟨.body, 0⟩ req len
  stores ⟨.body, 2⟩ (le16 0)
  let sum ← cksum ⟨.body, 0⟩ (8 + len)
  stores ⟨.body, 2⟩ (le16 sum)
  ipSend src ipProtoIcmp ⟨.body, 0⟩ (8 + len)

def andSame (c : Bool) (p q : Ptr Buffer) (len : Nat) : Prog Bool :=
  if c then same p q len else pure false

def answerArp (oper : Nat) : Prog Unit := do
  let mine ← andSame (be16 oper == 1) ⟨.arpIn, 24⟩ ⟨.ourIp, 0⟩ 4
  if mine then arpSend arpReply ⟨.arpIn, 8⟩ ⟨.arpIn, 14⟩ else pure ()

def learnGateway (oper : Nat) : Prog Unit := do
  let gateway ← andSame (be16 oper == 2) ⟨.arpIn, 14⟩ ⟨.gwIp, 0⟩ 4
  if gateway then do
    copy ⟨.gwMac, 0⟩ ⟨.arpIn, 8⟩ 6
    modify fun s => { s with vars.haveGwMac := true }
  else pure ()

def handleArp : Prog Unit := do
  copy ⟨.arpIn, 0⟩ ⟨.rx, 14⟩ 28
  let oper ← load16 ⟨.arpIn, 6⟩
  answerArp oper
  learnGateway oper

def handleIcmp (blen : Nat) : Prog Unit :=
  if 8 ≤ blen then do
    let type ← load ⟨.rx, 34⟩
    if type = 8 then icmpReply ⟨.ih, 12⟩ ⟨.rx, 34⟩ blen else pure ()
  else pure ()

def handleIp (len : Nat) : Prog Unit := do
  copy ⟨.ih, 0⟩ ⟨.rx, 14⟩ 20
  let proto ← load ⟨.ih, 9⟩
  if proto ≠ ipProtoIcmp then pure ()
  else do
    let ours ← same ⟨.ih, 16⟩ ⟨.ourIp, 0⟩ 4
    if ours = false then pure () else handleIcmp (len - 14 - 20)

def handleRx (len : Nat) : Prog Unit :=
  if len < 14 + 2 then pure ()
  else do
    copy ⟨.eh, 0⟩ ⟨.rx, 0⟩ 14
    let type ← load16 ⟨.eh, 12⟩
    if type = be16 etArp ∧ 14 + 28 ≤ len then handleArp
    else if type = be16 etIp4 ∧ 14 + 20 ≤ len then handleIp len
    else pure ()

/-! ## No buffer is left -/

section
variable {n : Nat}

abbrev Safe {α : Type} (n : Nat) (x : Prog α) : Prop := Bounded (capacity n) vnetEthMtu x

variable {p dst : Ptr Buffer} {len blen : Nat}

lemma safe_load16 (hp : p.offset + 2 ≤ capacity n p.buffer) : Safe n (load16 p) := by
  apply bounded_bind (bounded_loads hp)
  intro bytes
  exact bounded_pure _

lemma safe_cksum (hp : p.offset + len ≤ capacity n p.buffer) : Safe n (cksum p len) := by
  apply bounded_bind (bounded_loads hp)
  intro bytes
  exact bounded_pure _

lemma safe_vnetGetMac {out : Ptr Buffer} (hout : out.offset + 6 ≤ capacity n out.buffer) :
  Safe n (vnetGetMac out) :=
  bounded_copy hout (Nat.le_refl 6)

lemma safe_vnetSend (hp : p.offset + len ≤ capacity n p.buffer) (hlen : len ≤ vnetEthMtu) :
  Safe n (vnetSend p len) := by
  apply bounded_bind (bounded_loads hp)
  intro bytes s
  rw [logs_ask]
  exact hlen

lemma clip_eq_min (limit len : Nat) : (if len > limit then limit else len) = min len limit := by
  split
  · next h => exact (Nat.min_eq_right (Nat.le_of_lt h)).symm
  · next h => exact (Nat.min_eq_left (Nat.le_of_not_lt h)).symm

lemma safe_ethSend {payload : Ptr Buffer} {type plen : Nat}
  (hdst : dst.offset + 6 ≤ capacity n dst.buffer)
  (hpayload : payload.offset + min plen 1486 ≤ capacity n payload.buffer) :
  Safe n (ethSend dst type payload plen) := by
  have hmin : 14 + min plen 1486 ≤ 1500 := by omega
  rw [ethSend, clip_eq_min]
  apply bounded_bind (bounded_copy (show 0 + 6 ≤ 1500 by decide) hdst)
  intro _
  apply bounded_bind (safe_vnetGetMac (show 6 + 6 ≤ 1500 by decide))
  intro _
  apply bounded_bind (bounded_stores (show 12 + 2 ≤ 1500 by decide))
  intro _
  apply bounded_bind (bounded_copy hmin hpayload)
  intro _
  exact safe_vnetSend (show 0 + (14 + min plen 1486) ≤ 1500 by omega) hmin

lemma safe_arpSend {oper : Nat} {tha tpa : Ptr Buffer}
  (htha : tha.offset + 6 ≤ capacity n tha.buffer)
  (htpa : tpa.offset + 4 ≤ capacity n tpa.buffer) : Safe n (arpSend oper tha tpa) := by
  apply bounded_bind (bounded_stores (show 0 + 28 ≤ 28 by decide))
  intro _
  apply bounded_bind (bounded_stores (show 0 + 2 ≤ 28 by decide))
  intro _
  apply bounded_bind (bounded_stores (show 2 + 2 ≤ 28 by decide))
  intro _
  apply bounded_bind (bounded_stores (show 4 + 1 ≤ 28 by decide))
  intro _
  apply bounded_bind (bounded_stores (show 5 + 1 ≤ 28 by decide))
  intro _
  apply bounded_bind (bounded_stores (show 6 + 2 ≤ 28 by decide))
  intro _
  apply bounded_bind (safe_vnetGetMac (show 8 + 6 ≤ 28 by decide))
  intro _
  apply bounded_bind (bounded_copy (show 14 + 4 ≤ 28 by decide) (Nat.le_refl 4))
  intro _
  apply bounded_bind (bounded_copy (show 18 + 6 ≤ 28 by decide) htha)
  intro _
  apply bounded_bind (bounded_copy (show 24 + 4 ≤ 28 by decide) htpa)
  intro _
  apply safe_ethSend
  · split
    · exact Nat.le_refl 6
    · exact htha
  · exact (show 0 + min 28 1486 ≤ 28 by decide)

section
variable (hdst : dst.offset + 4 ≤ capacity n dst.buffer)
include hdst
variable {proto : UInt8}

lemma safe_ipHeader : Safe n (ipHeader dst proto blen) := by
  apply bounded_bind (bounded_stores (show 0 + 20 ≤ 1500 by decide))
  intro _
  apply bounded_bind (bounded_stores (show 0 + 1 ≤ 1500 by decide))
  intro _
  apply bounded_bind (bounded_stores (show 2 + 2 ≤ 1500 by decide))
  intro _
  apply bounded_bind (bounded_stores (show 4 + 2 ≤ 1500 by decide))
  intro _
  apply bounded_bind (bounded_stores (show 8 + 1 ≤ 1500 by decide))
  intro _
  apply bounded_bind (bounded_stores (show 9 + 1 ≤ 1500 by decide))
  intro _
  apply bounded_bind (bounded_copy (show 12 + 4 ≤ 1500 by decide) (Nat.le_refl 4))
  intro _
  exact bounded_copy (show 16 + 4 ≤ 1500 by decide) hdst

lemma safe_ipSend {body : Ptr Buffer}
    (hbody : body.offset + min blen 1480 ≤ capacity n body.buffer) :
  Safe n (ipSend dst proto body blen) := by
  have hmin : 20 + min blen 1480 ≤ 1500 := by omega
  have hsend : ∀ mac : Ptr Buffer, mac.offset + 6 ≤ capacity n mac.buffer →
      Safe n (ethSend mac etIp4 ⟨.pkt, 0⟩ (20 + min blen 1480)) := by
    intro mac hmac
    exact safe_ethSend hmac (show 0 + min (20 + min blen 1480) 1486 ≤ 1500 by omega)
  rw [ipSend, clip_eq_min]
  apply bounded_bind (safe_ipHeader hdst)
  intro _
  apply bounded_bind (safe_cksum (show 0 + 20 ≤ 1500 by decide))
  intro sum
  apply bounded_bind (bounded_stores (show 10 + 2 ≤ 1500 by decide))
  intro _
  apply bounded_bind (bounded_copy hmin hbody)
  intro _
  apply bounded_bind bounded_get
  intro s
  apply bounded_ite
  · intro _
    exact hsend ⟨.gwMac, 0⟩ (Nat.le_refl 6)
  intro _
  exact hsend ⟨.bcast, 0⟩ (Nat.le_refl 6)

end

lemma safe_icmpReply {src req : Ptr Buffer} (hsrc : src.offset + 4 ≤ capacity n src.buffer)
  (hreq : req.offset + len ≤ capacity n req.buffer) : Safe n (icmpReply src req len) := by
  rw [icmpReply, clip_eq_min]
  apply bounded_bind
    (bounded_copy (show 0 + min len 1492 ≤ 1500 by omega) (Nat.le_trans (by omega) hreq))
  intro _
  apply bounded_bind (bounded_stores (show 2 + 2 ≤ 1500 by decide))
  intro _
  apply bounded_bind (safe_cksum (show 0 + (8 + min len 1492) ≤ 1500 by omega))
  intro sum
  apply bounded_bind (bounded_stores (show 2 + 2 ≤ 1500 by decide))
  intro _
  exact safe_ipSend hsrc (show 0 + min (8 + min len 1492) 1480 ≤ 1500 by omega)

lemma safe_andSame {c : Bool} {q : Ptr Buffer} (hp : p.offset + len ≤ capacity n p.buffer)
  (hq : q.offset + len ≤ capacity n q.buffer) : Safe n (andSame c p q len) := by
  apply bounded_ite
  · intro _
    exact bounded_same hp hq
  intro _
  exact bounded_pure false

lemma safe_answerArp (oper : Nat) : Safe n (answerArp oper) := by
  apply bounded_bind (safe_andSame (Nat.le_refl 28) (Nat.le_refl 4))
  intro mine
  apply bounded_ite
  · intro _
    exact safe_arpSend (show 8 + 6 ≤ 28 by decide) (show 14 + 4 ≤ 28 by decide)
  intro _
  exact bounded_pure ()

lemma safe_learnGateway (oper : Nat) : Safe n (learnGateway oper) := by
  apply bounded_bind (safe_andSame (show 14 + 4 ≤ 28 by decide) (Nat.le_refl 4))
  intro gateway
  apply bounded_ite
  · intro _
    apply bounded_bind (bounded_copy (Nat.le_refl 6) (show 8 + 6 ≤ 28 by decide))
    intro _
    exact bounded_modify _
  intro _
  exact bounded_pure ()

lemma safe_handleArp (hlen : 14 + 28 ≤ n) : Safe n handleArp := by
  apply bounded_bind (bounded_copy (Nat.le_refl 28) hlen)
  intro _
  apply bounded_bind (safe_load16 (show 6 + 2 ≤ 28 by decide))
  intro oper
  apply bounded_bind (safe_answerArp oper)
  intro _
  exact safe_learnGateway oper

lemma safe_handleIcmp (hlen : 34 + blen ≤ n) : Safe n (handleIcmp blen) := by
  apply bounded_ite
  · intro hheader
    apply bounded_bind (bounded_load (show 34 < n by omega))
    intro type
    apply bounded_ite
    · intro _
      exact safe_icmpReply (show 12 + 4 ≤ 20 by decide) hlen
    intro _
    exact bounded_pure ()
  intro _
  exact bounded_pure ()

lemma safe_handleIp (hlen : 14 + 20 ≤ n) : Safe n (handleIp n) := by
  apply bounded_bind (bounded_copy (Nat.le_refl 20) hlen)
  intro _
  apply bounded_bind (bounded_load (show 9 < 20 by decide))
  intro proto
  apply bounded_ite
  · intro _
    exact bounded_pure ()
  intro _
  apply bounded_bind (bounded_same (Nat.le_refl 20) (Nat.le_refl 4))
  intro ours
  apply bounded_ite
  · intro _
    exact bounded_pure ()
  intro _
  exact safe_handleIcmp (by omega)

/-- Whatever the frame and the state of the stack, `handle_rx` reads the frame below its length,
writes only inside its buffers, and sends no frame longer than the device takes. -/
theorem received_frame_stays_in_buffers (n : Nat) (s : Memory) :
  ∀ act ∈ (handleRx n s).log, act.Within (capacity n) vnetEthMtu := by
  have hsafe : Safe n (handleRx n) := by
    apply bounded_ite
    · intro _
      exact bounded_pure ()
    intro hlen
    apply bounded_bind (bounded_copy (Nat.le_refl 14) (show 0 + 14 ≤ n by omega))
    intro _
    apply bounded_bind (safe_load16 (show 12 + 2 ≤ 14 by decide))
    intro type
    apply bounded_ite
    · intro harp
      exact safe_handleArp harp.2
    intro _
    apply bounded_ite
    · intro hip
      exact safe_handleIp hip.2
    intro _
    exact bounded_pure ()
  exact hsafe s

def whoHas : Memory where
  bytes
    | .rx, i =>
      (Net.bcast.bytes ++ [0x52, 0x55, 10, 0, 2, 2, 0x08, 0x06] ++
        [0, 1, 0x08, 0, 6, 4, 0, 1, 0x52, 0x55, 10, 0, 2, 2] ++ Net.gwIp.bytes ++
        List.replicate 6 0 ++ Net.ourIp.bytes).getD i 0
    | .ourIp, i => Net.ourIp.bytes.getD i 0
    | .gwIp, i => Net.gwIp.bytes.getD i 0
    | .bcast, i => Net.bcast.bytes.getD i 0
    | _, _ => 0
  vars := ⟨false, []⟩

theorem received_frame_stays_in_buffers_answered : Act.send 42 ∈ (handleRx 42 whoHas).log ∧
    (Act.send 42 : Act Buffer).Within (capacity 42) vnetEthMtu := by
  have hsent : Act.send 42 ∈ (handleRx 42 whoHas).log := by decide +kernel
  exact ⟨hsent, received_frame_stays_in_buffers 42 whoHas _ hsent⟩

end
end Aeos.Net.Bytewise
