/-
# Checksums on the wire

`cksum` computes the checksum as a number, and `ip_send`, `icmp_reply` and
`icmp_echo_request` store that number without `be16`.
-/

import Aeos.Net.Model

namespace Aeos.Net

open Lib List

def transmitted (n n' : Stack) : List (List UInt8) := n'.sent.drop n.sent.length

def ipHeaderOf (frame : List UInt8) : List UInt8 := (frame.drop 14).take 20

def icmpOf (frame : List UInt8) : List UInt8 := frame.drop 34

def ipFrame (n : Stack) (dst : Ip) (proto : UInt8) (body : List UInt8) : List UInt8 :=
  (if n.haveGwMac then n.gwMac else bcast).bytes ++ n.mac.bytes ++ le16 (be16 etIp4) ++
    (ipHeader dst proto (body.take 1480).length
      (cksum (ipHeader dst proto (body.take 1480).length 0)) ++ body.take 1480).take 1486

lemma transmitted_ipSend (n : Stack) (dst : Ip) (proto : UInt8) (body : List UInt8) :
  transmitted n (ipSend n dst proto body) = [ipFrame n dst proto body] :=
  drop_left

@[simp]
lemma length_le16 (v : Nat) : (le16 v).length = 2 := rfl

@[simp]
lemma length_ipHeader (dst : Ip) (proto : UInt8) (blen checksum : Nat) :
  (ipHeader dst proto blen checksum).length = 20 := rfl

lemma ipFrame_drop (n : Stack) (dst : Ip) (proto : UInt8) (body : List UInt8) :
  (ipFrame n dst proto body).drop 14 = ipHeader dst proto (body.take 1480).length
      (cksum (ipHeader dst proto (body.take 1480).length 0)) ++ body.take 1466 := by
  have hdrop : (ipFrame n dst proto body).drop 14 =
      (ipHeader dst proto (body.take 1480).length
        (cksum (ipHeader dst proto (body.take 1480).length 0)) ++ body.take 1480).take 1486 :=
    drop_left' rfl
  rw [hdrop, take_append, length_ipHeader, take_of_length_le (by simp), take_take]
  rfl

lemma ipHeaderOf_ipFrame (n : Stack) (dst : Ip) (proto : UInt8) (body : List UInt8) :
  ipHeaderOf (ipFrame n dst proto body) = ipHeader dst proto (body.take 1480).length
      (cksum (ipHeader dst proto (body.take 1480).length 0)) := by
  rw [ipHeaderOf, ipFrame_drop]
  exact take_left' rfl

lemma icmpOf_ipFrame (n : Stack) (dst : Ip) (proto : UInt8) (body : List UInt8) :
  icmpOf (ipFrame n dst proto body) = body.take 1466 := by
  have hsplit :
      icmpOf (ipFrame n dst proto body) = ((ipFrame n dst proto body).drop 14).drop 20 := by
    rw [icmpOf, drop_drop]
  rw [hsplit, ipFrame_drop]
  exact drop_left' rfl

lemma cksum_eq {bytes : List UInt8} (hlen : bytes.length ≤ 1500) :
  cksum bytes = 0xFFFF - onesSum (wordSum bytes) := by
  have hle := wordSum_le bytes
  rw [cksum, u32_of_lt (by omega)]

lemma cksum_lt (bytes : List UInt8) : cksum bytes < 65536 := by
  unfold cksum
  omega

variable {v : Nat} {front rest : List UInt8}

lemma wordSum_le16 (hv : v < 65536) : wordSum (le16 v) = swapped v := by
  simp only [le16, wordSum, swapped, UInt8.toNat_ofNat']
  omega

lemma ofNat_eq_iff (hv : v < 65536) :
  UInt8.ofNat v = UInt8.ofNat (v / 256) ↔ v % 256 = v / 256 := by
  rw [← UInt8.toNat_inj, UInt8.toNat_ofNat', UInt8.toNat_ofNat']
  omega

lemma wordSum_field (hfront : front.length % 2 = 0) (hv : v < 65536) :
  wordSum (front ++ le16 v ++ rest) = wordSum (front ++ le16 0 ++ rest) + swapped v := by
  have hfield : (front ++ le16 v).length % 2 = 0 := by
    rw [length_append, length_le16]
    omega
  have hfield' : (front ++ le16 0).length % 2 = 0 := by
    rw [length_append, length_le16]
    omega
  rw [wordSum_append hfield, wordSum_append hfield', wordSum_append hfront, wordSum_append hfront,
    wordSum_le16 hv, wordSum_le16 (by decide)]
  simp only [swapped]
  omega

lemma valid_take_iff (hfront : front.length % 2 = 0) {k : Nat} (hk : k % 2 = 0)
  (hfield : front.length + 2 ≤ k) (hlen : (front ++ le16 0 ++ rest).length ≤ 1500) :
  ChecksumValid ((front ++ le16 (cksum (front ++ le16 0 ++ rest)) ++ rest).take k) ↔
    swapped (cksum (front ++ le16 0 ++ rest)) ≡
      cksum (front ++ le16 0 ++ rest) + wordSum ((front ++ le16 0 ++ rest).drop k) [MOD 65535] ∧
    (wordSum ((front ++ le16 0 ++ rest).take k) ≠ 0 ∨ cksum (front ++ le16 0 ++ rest) ≠ 0) := by
  have htake : ∀ v, (front ++ le16 v ++ rest).take k =
      front ++ le16 v ++ rest.take (k - (front.length + 2)) := by
    intro v
    rw [take_append, length_append, length_le16, take_of_length_le]
    rw [length_append, length_le16]
    exact hfield
  have hsum := wordSum_take_add_drop hk (front ++ le16 0 ++ rest)
  rw [ChecksumValid, htake, wordSum_field hfront (cksum_lt _), ← htake, cksum_eq hlen, ← hsum]
  exact swapped_valid_iff _ _

lemma valid_iff {msg : Nat → List UInt8} {k : Nat} (hmsg : ∀ v, msg v = front ++ le16 v ++ rest)
  (hfront : front.length = k) (hk : k % 2 = 0) (hlen : (msg 0).length ≤ 1500) :
  ChecksumValid (msg (cksum (msg 0))) ↔
    (msg (cksum (msg 0))).getD k 0 = (msg (cksum (msg 0))).getD (k + 1) 0 := by
  subst hfront
  have hfield : ∀ v, (msg v).getD front.length 0 = UInt8.ofNat v ∧
      (msg v).getD (front.length + 1) 0 = UInt8.ofNat (v / 256) := by
    intro v
    rw [hmsg, append_assoc, getD_append_right _ _ _ _ le_rfl,
      getD_append_right _ _ _ _ (Nat.le_add_right _ 1), Nat.sub_self,
      Nat.add_sub_cancel_left]
    exact ⟨rfl, rfl⟩
  rw [(hfield _).1, (hfield _).2, ofNat_eq_iff (cksum_lt _), ChecksumValid, cksum_eq hlen,
    hmsg, wordSum_field hk (by omega), ← hmsg]
  exact swapped_valid_iff_of_all _

lemma ipHeader_valid_iff (n : Stack) (dst : Ip) (proto : UInt8) (body : List UInt8) :
  ChecksumValid (ipHeaderOf (ipFrame n dst proto body)) ↔
    (ipHeaderOf (ipFrame n dst proto body)).getD 10 0 =
      (ipHeaderOf (ipFrame n dst proto body)).getD 11 0 := by
  rw [ipHeaderOf_ipFrame]
  generalize (body.take 1480).length = blen
  have hsplit : ∀ v, ipHeader dst proto blen v = ([0x45, 0] ++ le16 (be16 (20 + blen)) ++
      le16 (be16 0x1234) ++ [0, 0] ++ [64, proto]) ++ le16 v ++ (ourIp.bytes ++ dst.bytes) :=
    fun v => rfl
  exact valid_iff hsplit rfl rfl (by simp)

/-! ## ICMP messages -/

lemma echoMessage_valid_iff (seq : Nat) :
  ChecksumValid (echoMessage seq (cksum (echoMessage seq 0))) ↔
    (echoMessage seq (cksum (echoMessage seq 0))).getD 2 0 =
      (echoMessage seq (cksum (echoMessage seq 0))).getD 3 0 := by
  have hsplit : ∀ v, echoMessage seq v = [8, 0] ++ le16 v ++
      (le16 icmpId ++ le16 (be16 seq) ++ List.replicate 32 0) := fun v => rfl
  exact valid_iff hsplit rfl rfl (by simp [echoMessage])

/-- The message of `icmp_reply`, with a value in its checksum field. -/
def replyMessage (n : Stack) (req : List UInt8) (v : Nat) : List UInt8 :=
  firstBytes (setChecksum (overwrite n.body 0 (req.take 1492).length
    fun i => (req.take 1492).getD i 0) v) (8 + (req.take 1492).length)

lemma setChecksum_setChecksum (body : Nat → UInt8) (v w : Nat) :
  setChecksum (setChecksum body v) w = setChecksum body w := by
  funext i
  simp only [setChecksum, Function.update_apply]
  split_ifs <;> rfl

lemma transmitted_icmpReply (n : Stack) (src : Ip) (req : List UInt8) :
  transmitted n (icmpReply n src req) =
    [ipFrame n src ipProtoIcmp (replyMessage n req (cksum (replyMessage n req 0)))] := by
  show transmitted n (ipSend _ src ipProtoIcmp
    (firstBytes (setChecksum (setChecksum _ 0) _) _)) = _
  rw [setChecksum_setChecksum]
  exact drop_left

lemma firstBytes_setChecksum (body : Nat → UInt8) (v k : Nat) :
  firstBytes (setChecksum body v) (4 + k) =
    [body 0, body 1] ++ le16 v ++ firstBytes (fun i => body (4 + i)) k := by
  have hrest : ∀ i, setChecksum body v (4 + i) = body (4 + i) := by
    intro i
    rw [setChecksum, Function.update_of_ne (by omega), Function.update_of_ne (by omega)]
  rw [firstBytes, range_add, map_append, map_map]
  refine congrArg₂ _ rfl ?_
  exact map_congr_left fun i _ => hrest i

lemma reply_valid_iff (n : Stack) (req : List UInt8) :
  ChecksumValid ((replyMessage n req (cksum (replyMessage n req 0))).take 1466) ↔
    swapped (cksum (replyMessage n req 0)) ≡
      cksum (replyMessage n req 0) + wordSum ((replyMessage n req 0).drop 1466) [MOD 65535] ∧
    (wordSum ((replyMessage n req 0).take 1466) ≠ 0 ∨ cksum (replyMessage n req 0) ≠ 0) := by
  have hlen : (8 + (req.take 1492).length) = 4 + (4 + (req.take 1492).length) := by omega
  have hle : (req.take 1492).length ≤ 1492 := length_take_le _ _
  rw [replyMessage, replyMessage, hlen, firstBytes_setChecksum, firstBytes_setChecksum]
  apply valid_take_iff (by simp) (by rfl) (by simp)
  simp only [firstBytes, length_append, length_cons, length_nil, length_le16,
    length_map, length_range]
  omega

/-- On a little-endian processor an IPv4 header and an echo request pass the receiver's check
exactly when the two bytes of the checksum are equal, and a reply, of which 1466 bytes are sent,
exactly when the number with its bytes swapped makes up for those that are not. -/
theorem checksums_valid_iff (n : Stack) :
  (∀ dst proto body, ∃ f, transmitted n (ipSend n dst proto body) = [f] ∧
    (ChecksumValid (ipHeaderOf f) ↔ (ipHeaderOf f).getD 10 0 = (ipHeaderOf f).getD 11 0)) ∧
  (∀ ipBe seq, ∃ f, transmitted n (icmpEchoRequest n ipBe seq) = [f] ∧
    (ChecksumValid (ipHeaderOf f) ↔ (ipHeaderOf f).getD 10 0 = (ipHeaderOf f).getD 11 0) ∧
    (ChecksumValid (icmpOf f) ↔ (icmpOf f).getD 2 0 = (icmpOf f).getD 3 0)) ∧
  ∀ src req, ∃ f, transmitted n (icmpReply n src req) = [f] ∧
    (ChecksumValid (ipHeaderOf f) ↔ (ipHeaderOf f).getD 10 0 = (ipHeaderOf f).getD 11 0) ∧
    (ChecksumValid (icmpOf f) ↔
      swapped (cksum (replyMessage n req 0)) ≡
        cksum (replyMessage n req 0) + wordSum ((replyMessage n req 0).drop 1466)
        [MOD 65535] ∧
      (wordSum ((replyMessage n req 0).take 1466) ≠ 0 ∨
        cksum (replyMessage n req 0) ≠ 0)) := by
  refine ⟨fun dst proto body => ?_, fun ipBe seq => ?_, fun src req => ?_⟩
  · exact ⟨_, transmitted_ipSend n dst proto body, ipHeader_valid_iff n dst proto body⟩
  · refine ⟨_, transmitted_ipSend n _ _ _, ipHeader_valid_iff n _ _ _, ?_⟩
    exact echoMessage_valid_iff seq
  refine ⟨_, transmitted_icmpReply n src req, ipHeader_valid_iff n _ _ _, ?_⟩
  rw [icmpOf_ipFrame]
  exact reply_valid_iff n req

def started : Stack where
  mac := ⟨0x52, 0x54, 0, 0x12, 0x34, 0x56⟩
  gwMac := ⟨0, 0, 0, 0, 0, 0⟩
  haveGwMac := false
  body := fun _ => 0
  sent := []

/-- The first request of a ping of 10.0.2.2 is sent with two wrong checksums. -/
theorem first_ping_not_valid :
  ∃ f, transmitted started (icmpEchoRequest started 0x0A000202 1) = [f] ∧
    ¬ ChecksumValid (ipHeaderOf f) ∧ ¬ ChecksumValid (icmpOf f) :=
  ⟨_, transmitted_ipSend started _ _ _, by decide +kernel, by decide +kernel⟩

/-! ## The loops of `cksum` -/

namespace Loop

def sumWords (sum : UInt32) : List UInt8 → UInt32
  | [] => sum
  | [a] => sum + a.toUInt32 <<< 8
  | a :: b :: rest => sumWords (sum + (a.toUInt32 <<< 8 ||| b.toUInt32)) rest

/-- `while (sum >> 16)`. -/
def foldSum : Nat → UInt32 → UInt32
  | 0, sum => sum
  | fuel + 1, sum =>
    if sum >>> 16 = 0 then sum else foldSum fuel ((sum &&& (0xFFFF : UInt32)) + sum >>> 16)

/-- `cksum` in its 32-bit words. A sum of `n` is folded less than `n` times. -/
def cksum (bytes : List UInt8) : UInt16 :=
  let sum := sumWords 0 bytes
  (~~~foldSum sum.toNat sum).toUInt16

lemma toNat_word (a b : UInt8) :
  (a.toUInt32 <<< 8 ||| b.toUInt32).toNat = a.toNat * 256 + b.toNat := by
  have ha := a.toNat_lt
  have hb := b.toNat_lt
  have hhigh : (a.toUInt32 <<< 8).toNat = a.toNat <<< 8 := by
    rw [UInt32.toNat_shiftLeft, UInt8.toNat_toUInt32, show UInt32.toNat 8 % 32 = 8 from rfl]
    exact Nat.mod_eq_of_lt (by rw [Nat.shiftLeft_eq]; omega)
  rw [UInt32.toNat_or, hhigh, UInt8.toNat_toUInt32, ← Nat.shiftLeft_add_eq_or_of_lt hb,
    Nat.shiftLeft_eq]

lemma toNat_sumWords (sum : UInt32) (bytes : List UInt8) :
  (sumWords sum bytes).toNat = u32 (sum.toNat + wordSum bytes) := by
  match bytes with
  | [] => exact (Nat.mod_eq_of_lt sum.toNat_lt).symm
  | [a] =>
    have hword := toNat_word a 0
    rw [show a.toUInt32 <<< 8 ||| (0 : UInt8).toUInt32 = a.toUInt32 <<< 8 from UInt32.or_zero]
      at hword
    rw [sumWords, UInt32.toNat_add, hword, UInt8.toNat_zero, Nat.add_zero, wordSum, u32]
  | a :: b :: rest =>
    rw [sumWords, toNat_sumWords, UInt32.toNat_add, toNat_word, wordSum, u32, u32,
      Nat.mod_add_mod, Nat.add_assoc]

lemma toNat_foldSum (fuel : Nat) (sum : UInt32) :
  (foldSum fuel sum).toNat = foldCarries fuel sum.toNat := by
  induction fuel generalizing sum with
  | zero => rfl
  | succ fuel ih =>
    have hlt := sum.toNat_lt
    have hcarry : (sum >>> 16).toNat = sum.toNat / 65536 := by
      rw [UInt32.toNat_shiftRight]
      exact Nat.shiftRight_eq_div_pow _ 16
    have hlow : (sum &&& 0xFFFF).toNat = sum.toNat % 65536 := by
      rw [UInt32.toNat_and]
      exact Nat.and_two_pow_sub_one_eq_mod _ 16
    have hdone : sum >>> 16 = 0 ↔ sum.toNat / 65536 = 0 := by
      rw [← hcarry, ← UInt32.toNat_inj]
      rfl
    rw [foldSum, foldCarries]
    by_cases hfold : sum >>> 16 = 0
    · rw [if_pos hfold, if_pos (hdone.mp hfold)]
    rw [if_neg hfold, if_neg (mt hdone.mpr hfold), ih, UInt32.toNat_add, hlow, hcarry,
      Nat.mod_eq_of_lt (by omega)]

lemma toNat_cksum (bytes : List UInt8) : (cksum bytes).toNat = Net.cksum bytes := by
  have hsum := toNat_sumWords 0 bytes
  rw [UInt32.toNat_zero, Nat.zero_add] at hsum
  have hlt := onesSum_lt (u32 (wordSum bytes))
  rw [cksum, UInt32.toNat_toUInt16, UInt32.toNat_not, toNat_foldSum, hsum, ← onesSum, Net.cksum]
  have hsize : UInt32.size = 4294967296 := rfl
  omega

end Loop

/-- A 16-bit number in network order. -/
def beBytes (v : UInt16) : List UInt8 := [(v >>> 8).toUInt8, v.toUInt8]

lemma wordSum_beBytes {front : List UInt8} (hfront : front.length % 2 = 0) (v : UInt16)
  (rest : List UInt8) :
  wordSum (front ++ beBytes v ++ rest) = wordSum front + v.toNat + wordSum rest := by
  have hlt := v.toNat_lt
  have hhigh : (v >>> 8).toUInt8.toNat = v.toNat / 256 % 256 := by
    rw [UInt16.toNat_toUInt8, UInt16.toNat_shiftRight, show UInt16.toNat 8 % 16 = 8 from rfl,
      Nat.shiftRight_eq_div_pow]
  have hlow := UInt16.toNat_toUInt8 v
  rw [append_assoc, wordSum_append hfront]
  simp only [beBytes, cons_append, nil_append, wordSum, hhigh, hlow]
  omega

/-- With the complement of its folded sum a sum is a positive multiple of 65535, and still
fits a word of 32 bits. -/
lemma stored_sum_valid {sum : Nat} (hsum : sum < 2 ^ 32) :
  u32 (sum + (0xFFFF - onesSum sum)) ≠ 0 ∧ u32 (sum + (0xFFFF - onesSum sum)) % 65535 = 0 := by
  have hlt := onesSum_lt sum
  have hmod : onesSum sum % 65535 = sum % 65535 := onesSum_modEq sum
  have hempty := onesSum_eq_zero sum
  generalize onesSum sum = folded at *
  have hfits : u32 (sum + (0xFFFF - folded)) = sum + (0xFFFF - folded) := u32_of_lt (by omega)
  rw [hfits]
  omega

lemma stored_sum (m n : Nat) : u32 (u32 m + n) = u32 (m + n) := Nat.mod_add_mod m (2 ^ 32) n

/-- `cksum` is the internet checksum of every buffer below 128 KB, with no overflow. Stored in a
zeroed field at an even place, it makes the checksum of a buffer of any length zero. -/
theorem cksum_is_internet_checksum (bytes : List UInt8) :
  (bytes.length < 2 ^ 17 →
    (∀ k, (Loop.sumWords 0 (bytes.take k)).toNat = wordSum (bytes.take k)) ∧
    (Loop.cksum bytes).toNat = 0xFFFF - (words bytes).foldl onesAdd 0) ∧
  ∀ front rest, front.length % 2 = 0 → bytes = front ++ [0, 0] ++ rest →
    Loop.cksum (front ++ beBytes (Loop.cksum bytes) ++ rest) = 0 := by
  constructor
  · intro hlen
    have hsmall : ∀ k, u32 (wordSum (bytes.take k)) = wordSum (bytes.take k) := by
      intro k
      have hle := wordSum_le (bytes.take k)
      have htake := length_take_le k bytes
      have htake' := length_take_le' k bytes
      exact u32_of_lt (by omega)
    refine ⟨fun k => ?_, ?_⟩
    · rw [Loop.toNat_sumWords, UInt32.toNat_zero, Nat.zero_add, hsmall]
    have hall := hsmall bytes.length
    rw [take_length] at hall
    rw [Loop.toNat_cksum, cksum, hall, foldl_onesAdd bytes (by decide), Nat.zero_add]
  intro front rest hfront hbytes
  have hzero : wordSum bytes = wordSum front + wordSum rest := by
    rw [hbytes]
    exact wordSum_beBytes hfront 0 rest
  rw [← UInt16.toNat_inj, Loop.toNat_cksum, cksum, wordSum_beBytes hfront, Loop.toNat_cksum, cksum,
    hzero, Nat.add_right_comm, ← stored_sum, (onesSum_eq_iff _).mpr (stored_sum_valid (u32_lt _))]
  rfl

theorem cksum_is_internet_checksum_header :
  Loop.cksum [0x45, 0, 0, 0, 1] = 0xB9FF ∧ (Loop.cksum [0x45, 0, 0, 0, 1]).toNat =
    0xFFFF - (words [0x45, 0, 0, 0, 1]).foldl onesAdd 0 ∧
    Loop.cksum ([0x45, 0] ++ beBytes 0xB9FF ++ [1]) = 0 := by
  have hsum : Loop.cksum [0x45, 0, 0, 0, 1] = 0xB9FF := by decide
  obtain ⟨hexact, hstored⟩ := cksum_is_internet_checksum [0x45, 0, 0, 0, 1]
  have hzero := hstored [0x45, 0] [1] rfl rfl
  rw [hsum] at hzero
  exact ⟨hsum, (hexact (by decide)).2, hzero⟩

end Aeos.Net
