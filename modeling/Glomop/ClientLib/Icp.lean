import Glomop.Lib.CText

/-!
# Asking a cache over ICP

`do_icp_query` sends a datagram to a partition of the cache, and `do_icp_udp_receive` takes the
answer apart.  The number of a query goes through `htons` and would come back through `ntohl`.
`Clib_Query` looks at the opcode of the message, which is set before the body is looked at, and not
at all if the datagram has no whole header.
Source: `client_lib/include/icp.h`, `icp.c`.
-/

namespace Glomop.ClientLib.Icp

open Lib UInt8

inductive ByteOrder
  | little
  | big
deriving DecidableEq

def bytes16 : ByteOrder → UInt16 → Bytes
  | .little, w => [UInt8.ofNat w.toNat, UInt8.ofNat (w.toNat / 2 ^ 8)]
  | .big, w => [UInt8.ofNat (w.toNat / 2 ^ 8), UInt8.ofNat w.toNat]

def word16 : ByteOrder → Bytes → UInt16
  | .little, [a, b] => UInt16.ofNat (a.toNat + 2 ^ 8 * b.toNat)
  | .big, [a, b] => UInt16.ofNat (2 ^ 8 * a.toNat + b.toNat)
  | _, _ => 0

def bytes32 : ByteOrder → UInt32 → Bytes
  | .little, w => [UInt8.ofNat w.toNat, UInt8.ofNat (w.toNat / 2 ^ 8),
      UInt8.ofNat (w.toNat / 2 ^ 16), UInt8.ofNat (w.toNat / 2 ^ 24)]
  | .big, w => [UInt8.ofNat (w.toNat / 2 ^ 24), UInt8.ofNat (w.toNat / 2 ^ 16),
      UInt8.ofNat (w.toNat / 2 ^ 8), UInt8.ofNat w.toNat]

def word32 : ByteOrder → Bytes → UInt32
  | .little, [a, b, c, d] =>
    UInt32.ofNat (a.toNat + 2 ^ 8 * b.toNat + 2 ^ 16 * c.toNat + 2 ^ 24 * d.toNat)
  | .big, [a, b, c, d] =>
    UInt32.ofNat (2 ^ 24 * a.toNat + 2 ^ 16 * b.toNat + 2 ^ 8 * c.toNat + d.toNat)
  | _, _ => 0

/-- The word that has the bytes of `w` in network order in memory. -/
def htons (o : ByteOrder) (w : UInt16) : UInt16 := word16 o (bytes16 .big w)

def ntohs (o : ByteOrder) (w : UInt16) : UInt16 := word16 .big (bytes16 o w)

def htonl (o : ByteOrder) (w : UInt32) : UInt32 := word32 o (bytes32 .big w)

def ntohl (o : ByteOrder) (w : UInt32) : UInt32 := word32 .big (bytes32 o w)

/-- `icp_common_t`. -/
structure IcpCommon where
  opcode : UInt8
  version : UInt8
  length : UInt16
  reqnum : UInt32
  auth : Bytes
  shostid : UInt32
deriving DecidableEq

/-- `sizeof(icp_common_t)`. -/
def commonSize : ℕ := 20

def IcpCommon.bytes (o : ByteOrder) (h : IcpCommon) : Bytes :=
  [h.opcode, h.version] ++ bytes16 o h.length ++ bytes32 o h.reqnum ++ h.auth ++ bytes32 o h.shostid

def IcpCommon.ofBytes (o : ByteOrder) (buf : Bytes) : IcpCommon where
  opcode := buf.getD 0 0
  version := buf.getD 1 0
  length := word16 o ((buf.drop 2).take 2)
  reqnum := word32 o ((buf.drop 4).take 4)
  auth := (buf.drop 8).take 8
  shostid := word32 o ((buf.drop 16).take 4)

/-- `icp_opcode`. -/
def ICP_OP_INVALID : UInt8 := 0
def ICP_OP_QUERY : UInt8 := 1
def ICP_OP_HIT : UInt8 := 2
def ICP_OP_MISS : UInt8 := 3

def ICP_VERSION_CURRENT : UInt8 := 2
def ICP_MAX_URL : ℕ := 4096

/-- The datagram that is sent. -/
def doIcpQuery (o : ByteOrder) (url : Bytes) (sourceAddr : UInt32) (reqnum : UInt16) : Bytes :=
  let len := commonSize + 4 + url.length + 1
  let addrcopy := htonl o sourceAddr
  let header : IcpCommon :=
    { opcode := ICP_OP_QUERY
      version := ICP_VERSION_CURRENT
      length := htons o (UInt16.ofNat len)
      reqnum := (htons o reqnum).toUInt32
      auth := List.replicate 8 0
      shostid := addrcopy }
  header.bytes o ++ bytes32 o addrcopy ++ url ++ [0]

/-- The header of a datagram, as it is taken over from the buffer. -/
def decodeHeader (o : ByteOrder) (buf : Bytes) : IcpCommon :=
  let header := IcpCommon.ofBytes o buf
  { header with
    reqnum := ntohl o header.reqnum
    length := ntohs o header.length
    shostid := ntohl o header.shostid }

/-- `icp_message_t`.  `url` is the pointer in its union, which may be wild. -/
structure IcpMessage where
  header : IcpCommon
  url : Option Bytes

/-- The value returned, and the caller's message. -/
def doIcpUdpReceive (o : ByteOrder) (datagram : Bytes) (retObj : IcpMessage) : ℤ × IcpMessage :=
  let buf := datagram.take ICP_MAX_URL
  if buf.length = 0 then (0, retObj)
  else if buf.length < commonSize then (-2, retObj)
  else
    let retObj := { retObj with header := decodeHeader o buf }
    let body := buf.drop commonSize
    if retObj.header.opcode = ICP_OP_HIT then
      if body.length = 0 then (-2, retObj) else (1, { retObj with url := some body })
    else if retObj.header.opcode = ICP_OP_MISS then
      if body.length = 0 then (-2, retObj) else (0, { retObj with url := some body })
    else (-2, retObj)

inductive ClibResponse
  | cacheHit
  | cacheMiss
  | badURL
  | serverInternal
deriving DecidableEq

/-- What becomes of an answer; `messageObj` is what was on the stack.
`clib.c`. -/
def clibQuery (o : ByteOrder) (messageObj : IcpMessage) (datagram : Bytes) : ClibResponse :=
  let opcode := (doIcpUdpReceive o datagram messageObj).2.header.opcode
  if opcode = ICP_OP_HIT then .cacheHit
  else if opcode = ICP_OP_MISS then .cacheMiss
  else if opcode = ICP_OP_INVALID then .badURL
  else .serverInternal

def Accepted (opcode : UInt8) (datagram : Bytes) : Prop :=
  datagram[0]? = some opcode ∧ commonSize < datagram.length

/-- **The exchange as it should be**: the header of a query is recovered, and a hit or a miss is
reported exactly if one was accepted. -/
def Right (o : ByteOrder) (url : Bytes) (sourceAddr : UInt32) (reqnum : UInt16)
    (messageObj : IcpMessage) (datagram : Bytes) : Prop :=
  ((decodeHeader o (doIcpQuery o url sourceAddr reqnum)).length.toNat =
      (doIcpQuery o url sourceAddr reqnum).length ∧
    (decodeHeader o (doIcpQuery o url sourceAddr reqnum)).reqnum = reqnum.toUInt32) ∧
  (clibQuery o messageObj datagram = .cacheHit ↔ Accepted ICP_OP_HIT datagram) ∧
  (clibQuery o messageObj datagram = .cacheMiss ↔ Accepted ICP_OP_MISS datagram)

/-! ## Words -/

variable {o : ByteOrder} {datagram : Bytes}

lemma word16_bytes16 (w : UInt16) : word16 o (bytes16 o w) = w := by
  have hlt := w.toNat_lt
  rw [← UInt16.toNat_inj]
  cases o <;> simp only [bytes16, word16, toNat_ofNat', UInt16.toNat_ofNat'] <;> omega

lemma word32_bytes32 (w : UInt32) : word32 o (bytes32 o w) = w := by
  have hlt := w.toNat_lt
  rw [← UInt32.toNat_inj]
  cases o <;> simp only [bytes32, word32, toNat_ofNat', UInt32.toNat_ofNat'] <;> omega

lemma bytes16_word16 (a b : UInt8) : bytes16 o (word16 o [a, b]) = [a, b] := by
  have ha := a.toNat_lt
  have hb := b.toNat_lt
  cases o <;> simp only [bytes16, word16, List.cons.injEq, and_true, ← UInt8.toNat_inj,
    UInt8.toNat_ofNat', UInt16.toNat_ofNat'] <;> omega

lemma ntohs_htons (w : UInt16) : ntohs o (htons o w) = w := by
  have hb : bytes16 o (htons o w) = bytes16 .big w := bytes16_word16 _ _
  rw [ntohs, hb, word16_bytes16]

lemma toNat_ntohl_htons (w : UInt16) :
    (ntohl .little (htons .little w).toUInt32).toNat = w.toNat * 2 ^ 16 := by
  have hlt := w.toNat_lt
  have hh : w.toNat / 2 ^ 8 % 2 ^ 8 = w.toNat / 2 ^ 8 := by omega
  have hs : (htons .little w).toNat = w.toNat / 2 ^ 8 + 2 ^ 8 * (w.toNat % 2 ^ 8) := by
    simp only [htons, bytes16, word16, toNat_ofNat', UInt16.toNat_ofNat', hh]
    omega
  simp only [ntohl, bytes32, word32, toNat_ofNat', UInt32.toNat_ofNat', UInt16.toNat_toUInt32, hs]
  have h0 : (w.toNat / 2 ^ 8 + 2 ^ 8 * (w.toNat % 2 ^ 8)) % 2 ^ 8 = w.toNat / 2 ^ 8 := by omega
  have h1 : (w.toNat / 2 ^ 8 + 2 ^ 8 * (w.toNat % 2 ^ 8)) / 2 ^ 8 % 2 ^ 8 = w.toNat % 2 ^ 8 := by
    omega
  have h2 : (w.toNat / 2 ^ 8 + 2 ^ 8 * (w.toNat % 2 ^ 8)) / 2 ^ 16 = 0 := by omega
  have h3 : (w.toNat / 2 ^ 8 + 2 ^ 8 * (w.toNat % 2 ^ 8)) / 2 ^ 24 = 0 := by omega
  rw [h0, h1, h2, h3]
  omega

lemma ntohl_htons_iff (w : UInt16) :
    ntohl o (htons o w).toUInt32 = w.toUInt32 ↔ o = .big ∨ w = 0 := by
  cases o with
  | big => simp only [ntohl, htons, word16_bytes16, word32_bytes32, true_or]
  | little =>
    rw [← UInt32.toNat_inj, toNat_ntohl_htons, ← UInt16.toNat_inj, UInt16.toNat_toUInt32]
    simp only [reduceCtorEq, false_or, UInt16.toNat_zero]
    omega

/-! ## The header of a query -/

lemma decodeHeader_doIcpQuery (url : Bytes) (sourceAddr : UInt32) (reqnum : UInt16) :
    (decodeHeader o (doIcpQuery o url sourceAddr reqnum)).length =
        UInt16.ofNat (commonSize + 4 + url.length + 1) ∧
      (decodeHeader o (doIcpQuery o url sourceAddr reqnum)).reqnum =
        ntohl o (htons o reqnum).toUInt32 := by
  have hl : (decodeHeader o (doIcpQuery o url sourceAddr reqnum)).length =
      ntohs o (word16 o (bytes16 o (htons o
        (UInt16.ofNat (commonSize + 4 + url.length + 1))))) := by
    cases o <;> rfl
  have hr : (decodeHeader o (doIcpQuery o url sourceAddr reqnum)).reqnum =
      ntohl o (word32 o (bytes32 o (htons o reqnum).toUInt32)) := by
    cases o <;> rfl
  rw [hl, hr, word16_bytes16, ntohs_htons, word32_bytes32]
  exact ⟨rfl, rfl⟩

lemma length_doIcpQuery (url : Bytes) (sourceAddr : UInt32) (reqnum : UInt16) :
    (doIcpQuery o url sourceAddr reqnum).length = commonSize + 4 + url.length + 1 := by
  cases o <;> simp [doIcpQuery, IcpCommon.bytes, bytes16, bytes32, commonSize] <;> omega

lemma opcode_receive (retObj : IcpMessage) :
    (doIcpUdpReceive o datagram retObj).2.header.opcode =
      if datagram.length < commonSize then retObj.header.opcode else datagram.getD 0 0 := by
  have hb : (datagram.take ICP_MAX_URL).length < commonSize ↔ datagram.length < commonSize := by
    rw [List.length_take, ICP_MAX_URL, commonSize]
    omega
  have ho : (datagram.take ICP_MAX_URL).getD 0 0 = datagram.getD 0 0 := by
    cases datagram <;> rfl
  unfold doIcpUdpReceive
  dsimp only
  split_ifs <;> first
    | rfl
    | exact ho
    | (simp only [commonSize] at *; omega)

lemma accepted_iff (opcode : UInt8) :
    Accepted opcode datagram ↔ datagram.getD 0 0 = opcode ∧ commonSize < datagram.length := by
  refine and_congr_left fun hlt => ?_
  cases datagram with
  | nil => cases hlt
  | cons c datagram => simp

/-- **When the exchange is right**: exactly if the machine is big-endian or the number of the query
is zero, and if the answer is neither a hit or a miss without a body nor so short that the message
is not set, with the opcode of a hit or a miss on the stack. -/
theorem icp_right_iff (o : ByteOrder) (url : Bytes) (hurl : url.length < 65000)
    (sourceAddr : UInt32) (reqnum : UInt16) (messageObj : IcpMessage) (datagram : Bytes) :
    Right o url sourceAddr reqnum messageObj datagram ↔ (o = .big ∨ reqnum = 0) ∧
      (datagram.length < commonSize → messageObj.header.opcode ∉ [ICP_OP_HIT, ICP_OP_MISS]) ∧
      (datagram.length = commonSize → datagram.getD 0 0 ∉ [ICP_OP_HIT, ICP_OP_MISS]) := by
  obtain ⟨hl, hr⟩ := @decodeHeader_doIcpQuery o url sourceAddr reqnum
  have hlen : (UInt16.ofNat (commonSize + 4 + url.length + 1)).toNat =
      commonSize + 4 + url.length + 1 := by
    rw [UInt16.toNat_ofNat', commonSize]
    omega
  have hne : ICP_OP_HIT ≠ ICP_OP_MISS := by decide
  unfold Right clibQuery
  rw [hl, hr, length_doIcpQuery, hlen, ntohl_htons_iff, opcode_receive, accepted_iff, accepted_iff]
  refine and_congr ⟨And.right, fun h => ⟨rfl, h⟩⟩ ?_
  simp only [List.mem_cons, List.not_mem_nil, or_false, not_or]
  rcases lt_trichotomy datagram.length commonSize with hlt | heq | hgt
  · simp only [if_pos hlt]
    split_ifs <;> simp_all <;> omega
  · simp only [if_neg heq.not_lt]
    split_ifs <;> simp_all
  · simp only [if_neg hgt.le.not_gt]
    split_ifs <;> simp_all <;> omega

def wildMessage (opcode : UInt8) : IcpMessage := ⟨⟨opcode, 0, 0, 0, [], 0⟩, none⟩

/-- A hit with a body of one byte, on a big-endian machine. -/
theorem icp_right_hit :
    ([104, 116] : Bytes).length < 65000 ∧
      Right .big [104, 116] 0 1 (wildMessage 3) (2 :: List.replicate 20 0) :=
  ⟨by decide, (icp_right_iff .big [104, 116] (by decide) 0 1 (wildMessage 3)
    (2 :: List.replicate 20 0)).mpr (by decide)⟩

/-- **Number 1 becomes 65536** on a little-endian machine, and a hit without a body, which is
refused, is reported. -/
theorem icp_reqnum_shifted :
    (decodeHeader .little (doIcpQuery .little [104, 116] 0 1)).reqnum = 65536 ∧
      (doIcpUdpReceive .little (2 :: List.replicate 19 0) (wildMessage 0)).1 = -2 ∧
      clibQuery .little (wildMessage 0) (2 :: List.replicate 19 0) = .cacheHit := by
  decide

end Glomop.ClientLib.Icp
