/-
# The network stack

Ethernet, ARP, IPv4 and ICMP as in `kernel/net.c`, on a little-endian processor. Frames handed
to `vnet_send` are recorded in order. Of the static buffers, only that of `icmp_reply` keeps
bytes from one call to the next that are sent.
-/

import Aeos.Lib.Bytes
import Aeos.Lib.OnesComplement

namespace Aeos.Net

open Lib

/-! ## Fields -/

def le16 (v : Nat) : List UInt8 := [UInt8.ofNat v, UInt8.ofNat (v / 256)]

def ld16 (bytes : List UInt8) (off : Nat) : Nat :=
  (bytes.getD off 0).toNat + 256 * (bytes.getD (off + 1) 0).toNat

def be16 (v : Nat) : Nat := ((v >>> 8) ||| (v <<< 8)) % 65536

structure Ip where
  a : UInt8
  b : UInt8
  c : UInt8
  d : UInt8
  deriving DecidableEq

def Ip.bytes (ip : Ip) : List UInt8 := [ip.a, ip.b, ip.c, ip.d]

def ipAt (bytes : List UInt8) (off : Nat) : Ip :=
  ⟨bytes.getD off 0, bytes.getD (off + 1) 0, bytes.getD (off + 2) 0, bytes.getD (off + 3) 0⟩

structure Mac where
  a : UInt8
  b : UInt8
  c : UInt8
  d : UInt8
  e : UInt8
  f : UInt8
  deriving DecidableEq

def Mac.bytes (m : Mac) : List UInt8 := [m.a, m.b, m.c, m.d, m.e, m.f]

def macAt (bytes : List UInt8) (off : Nat) : Mac :=
  ⟨bytes.getD off 0, bytes.getD (off + 1) 0, bytes.getD (off + 2) 0, bytes.getD (off + 3) 0,
    bytes.getD (off + 4) 0, bytes.getD (off + 5) 0⟩

def ourIp : Ip := ⟨10, 0, 2, 15⟩
def gwIp : Ip := ⟨10, 0, 2, 2⟩
def bcast : Mac := ⟨0xFF, 0xFF, 0xFF, 0xFF, 0xFF, 0xFF⟩

def etArp : Nat := 0x0806
def etIp4 : Nat := 0x0800
def arpReply : Nat := 2
def ipProtoIcmp : UInt8 := 1
def icmpId : Nat := 0x4145

def cksum (bytes : List UInt8) : Nat := 0xFFFF - onesSum (u32 (wordSum bytes))

/-! ## Transmitting -/

/-- The state of the stack and the frames it has sent; `body` is the buffer of
`icmp_reply`. -/
structure Stack where
  mac : Mac
  gwMac : Mac
  haveGwMac : Bool
  body : Nat → UInt8
  sent : List (List UInt8)

def ethSend (n : Stack) (dst : Mac) (type : Nat) (payload : List UInt8) : Stack :=
  { n with
    sent := n.sent ++ [dst.bytes ++ n.mac.bytes ++ le16 (be16 type) ++ payload.take 1486] }

def arpSend (n : Stack) (oper : Nat) (tha : Mac) (tpa : Ip) : Stack :=
  ethSend n (if oper = 1 then bcast else tha) etArp
    (le16 (be16 1) ++ le16 (be16 etIp4) ++ [6, 4] ++ le16 (be16 oper) ++ n.mac.bytes ++
      ourIp.bytes ++ tha.bytes ++ tpa.bytes)

def ipHeader (dst : Ip) (proto : UInt8) (blen checksum : Nat) : List UInt8 :=
  [0x45, 0] ++ le16 (be16 (20 + blen)) ++ le16 (be16 0x1234) ++ [0, 0] ++ [64, proto] ++
    le16 checksum ++ ourIp.bytes ++ dst.bytes

/-- `ip_send`; the packet buffer has 1500 bytes. -/
def ipSend (n : Stack) (dst : Ip) (proto : UInt8) (body : List UInt8) : Stack :=
  let body := body.take 1480
  let checksum := cksum (ipHeader dst proto body.length 0)
  ethSend n (if n.haveGwMac then n.gwMac else bcast) etIp4
    (ipHeader dst proto body.length checksum ++ body)

def firstBytes (body : Nat → UInt8) (len : Nat) : List UInt8 := (List.range len).map body

def setChecksum (body : Nat → UInt8) (v : Nat) : Nat → UInt8 :=
  Function.update (Function.update body 2 (UInt8.ofNat v)) 3 (UInt8.ofNat (v / 256))

/-- `icmp_reply`. What is summed and sent is eight bytes longer than the request and differs in
its checksum only. -/
def icmpReply (n : Stack) (src : Ip) (req : List UInt8) : Stack :=
  let req := req.take 1492
  let body := setChecksum (overwrite n.body 0 req.length fun i => req.getD i 0) 0
  let body := setChecksum body (cksum (firstBytes body (8 + req.length)))
  ipSend { n with body := body } src ipProtoIcmp (firstBytes body (8 + req.length))

def echoMessage (seq checksum : Nat) : List UInt8 :=
  [8, 0] ++ le16 checksum ++ le16 icmpId ++ le16 (be16 seq) ++ List.replicate 32 0

def ipOfWord (w : Nat) : Ip :=
  ⟨UInt8.ofNat w, UInt8.ofNat (w / 2 ^ 8), UInt8.ofNat (w / 2 ^ 16), UInt8.ofNat (w / 2 ^ 24)⟩

def icmpEchoRequest (n : Stack) (ipBe seq : Nat) : Stack :=
  ipSend n (ipOfWord ipBe) ipProtoIcmp (echoMessage seq (cksum (echoMessage seq 0)))

/-! ## Receiving -/

def handleArp (n : Stack) (a : List UInt8) : Stack :=
  let oper := be16 (ld16 a 6)
  let n :=
    if oper = 1 ∧ ipAt a 24 = ourIp then arpSend n arpReply (macAt a 8) (ipAt a 14) else n
  if oper = 2 ∧ ipAt a 14 = gwIp then { n with gwMac := macAt a 8, haveGwMac := true } else n

def handleIp (n : Stack) (packet : List UInt8) : Stack :=
  if packet.getD 9 0 ≠ ipProtoIcmp then n
  else if ipAt packet 16 ≠ ourIp then n
  else
    let body := packet.drop 20
    if 8 ≤ body.length ∧ body.getD 0 0 = 8 then icmpReply n (ipAt packet 12) body else n

def handleRx (n : Stack) (frame : List UInt8) : Stack :=
  if frame.length < 14 + 2 then n
  else if ld16 frame 12 = be16 etArp ∧ 14 + 28 ≤ frame.length then handleArp n (frame.drop 14)
  else if ld16 frame 12 = be16 etIp4 ∧ 14 + 20 ≤ frame.length then handleIp n (frame.drop 14)
  else n

end Aeos.Net
