import Glomop.Lib.CharSum
import Glomop.Network.Socket

/-!
# Packets as datagrams

On the shared bus a packet travels as one datagram: a checksum of four bytes, the header and the
body, all within `MAXDGRAMSIZE`.  `read_write` is the round trip, and that no change of a single
byte goes unnoticed, which is due to the checksum alone.  Source: `packet.h`, `packet.cc`.
-/

namespace Glomop.Network.Multicast

open Lib List IStream PacketHeader

abbrev checksumSize : ℕ := 4

abbrev maxDgramSize : ℕ := 1024

/-- A packet, with the body it points to.  `class gm_Packet`. -/
structure Packet where
  type : UInt32
  requestReplyID : UInt32
  length : UInt32
  /-- `none` is `NULL`. -/
  data : Option Bytes
  counted : ∀ bytes ∈ data, bytes.length = length.toNat

namespace Packet

def bytes (p : Packet) : Bytes := p.data.getD []

/-- `gm_PacketHeader::gm_PacketHeader`. -/
def header (p : Packet) : PacketHeader where
  magic := magicKey
  type := p.type
  length := p.length
  requestReplyID := p.requestReplyID

end Packet

/-! ## The checksum -/

def createChecksum (buffer : Bytes) : Bytes := htonl (charSum buffer)

def verifyChecksum (checksum buffer : Bytes) : Bool :=
  decide (checksum = htonl (charSum buffer))

@[simp] lemma length_createChecksum (buffer : Bytes) :
    (createChecksum buffer).length = checksumSize := rfl

@[simp] lemma verifyChecksum_createChecksum (buffer : Bytes) :
    verifyChecksum (createChecksum buffer) buffer = true :=
  decide_eq_true rfl

lemma createChecksum_injOn_charSum {buffer buffer' : Bytes}
    (h : createChecksum buffer = createChecksum buffer') : charSum buffer = charSum buffer' := by
  have hr := congrArg ntohl h
  rwa [createChecksum, createChecksum, ntohl_htonl, ntohl_htonl] at hr

/-- **The checksum notices a change of one byte**, of the bytes it covers as well as of its own. -/
theorem verifyChecksum_set {buffer : Bytes} {i : ℕ} {c : UInt8}
    (hi : i < (createChecksum buffer ++ buffer).length)
    (hc : c ≠ (createChecksum buffer ++ buffer)[i]) :
    verifyChecksum (((createChecksum buffer ++ buffer).set i c).take checksumSize)
      (((createChecksum buffer ++ buffer).set i c).drop checksumSize) = false := by
  by_cases hs : i < checksumSize
  · -- the sum that was sent is another one, and what is summed up is the same
    have hse : (createChecksum buffer ++ buffer).set i c =
        (createChecksum buffer).set i c ++ buffer := set_append_left i c hs
    rw [hse, take_left' (by simp), drop_left' (by simp)]
    refine decide_eq_false fun heq => hc ?_
    rw [getElem_append_left hs]
    have hat : ((createChecksum buffer).set i c)[i]? = (createChecksum buffer)[i]? := by
      rw [heq, createChecksum]
    rw [getElem?_set_self hs, getElem?_eq_getElem hs] at hat
    exact Option.some.inj hat
  · rw [Nat.not_lt] at hs
    have hse : (createChecksum buffer ++ buffer).set i c =
        createChecksum buffer ++ buffer.set (i - checksumSize) c :=
      set_append_right i c hs
    rw [hse, take_left' (by simp), drop_left' (by simp)]
    refine decide_eq_false fun heq => ?_
    have hi' : i - checksumSize < buffer.length := by
      rw [length_append, length_createChecksum] at hi
      omega
    rw [getElem_append_right (by simpa using hs)] at hc
    exact charSum_set_ne hi' hc (createChecksum_injOn_charSum heq.symm)

/-! ## Writing and reading -/

def content (p : Packet) : Bytes := p.header.addToPacket ++ p.bytes

/-- The datagram that is sent.  `none`: the buffer was too small for what is written to it. -/
def write (p : Packet) : Option (Except Errors Bytes) :=
  if 0 < p.length ∧ p.data = none then some (.error .errSocketWriteError)
  else
    -- the sum is computed in a `UINT32`
    let size : UInt32 := UInt32.ofNat (checksumSize + PacketHeader.size) + p.length
    if size > UInt32.ofNat maxDgramSize then some (.error .errTooLargeDatagram)
    else if checksumSize + (PacketHeader.size + p.length.toNat) ≤ size.toNat then
      some (.ok (createChecksum (content p) ++ content p))
    else none

/-- The tests of a header against the bytes that follow it.  `MulticastSocket::Read`, its second
half. -/
def accept (header : PacketHeader) (body : Bytes) : Except Errors Packet :=
  if header.magic ≠ magicKey then .error .errInvalidMagicKey
  else if hlong : header.length.toNat > body.length then .error .errSocketReadNotEnoughData
  else if hshort : header.length.toNat < body.length then .error .errFormattingError
  else
    .ok {
      type := header.type
      requestReplyID := header.requestReplyID
      length := header.length
      data := if header.length = 0 then none else some body
      counted := by
        intro bytes hbytes
        obtain ⟨_, hbody⟩ := Option.ite_none_left_eq_some.mp hbytes
        rw [← Option.some.inj hbody]
        exact le_antisymm (not_lt.mp hshort) (not_lt.mp hlong) }

/-- What `MulticastSocket::Read` makes of the bytes in its array. -/
def interpret (buffer : Bytes) : Except Errors Packet :=
  if buffer.length < checksumSize + PacketHeader.size then .error .errSocketReadNotEnoughData
  else if verifyChecksum (buffer.take checksumSize) (buffer.drop checksumSize) = false then
    .error .errChecksumError
  else
    accept (PacketHeader.extractFromPacket (buffer.drop checksumSize))
      (buffer.drop (checksumSize + PacketHeader.size))

/-- What `Read(buffer, MAXDGRAMSIZE, tv)` gives is the datagram, cut off at the size of the array; to
it, an empty one is the end of the file. -/
def read (datagram : Bytes) : Except Errors Packet :=
  if datagram = [] then .error .errSocketEOF else interpret (datagram.take maxDgramSize)

variable {p : Packet}

lemma length_bytes (h : ¬ (0 < p.length ∧ p.data = none)) : p.bytes.length = p.length.toNat := by
  unfold Packet.bytes
  cases hd : p.data with
  | some bytes => exact p.counted bytes hd
  | none =>
    have hz : p.length.toNat = 0 := by
      have hle : ¬ 0 < p.length := fun hpos => h ⟨hpos, hd⟩
      rw [UInt32.lt_iff_toNat_lt] at hle
      exact Nat.eq_zero_of_not_pos hle
    rw [hz]
    rfl

lemma write_eq_ok_iff {datagram : Bytes} :
    write p = some (.ok datagram) ↔ ¬ (0 < p.length ∧ p.data = none) ∧
      checksumSize + (size + p.length.toNat) ≤ maxDgramSize ∧
      datagram = createChecksum (content p) ++ content p := by
  have hln := p.length.toNat_lt
  have hs : (UInt32.ofNat (checksumSize + size) + p.length).toNat =
      (20 + p.length.toNat) % 2 ^ 32 := UInt32.toNat_add _ _
  have hm : (UInt32.ofNat maxDgramSize).toNat = 1024 := rfl
  have ht : checksumSize + (size + p.length.toNat) = 20 + p.length.toNat :=
    (Nat.add_assoc _ _ _).symm
  rw [ht]
  unfold write
  dsimp only
  by_cases hn : 0 < p.length ∧ p.data = none
  · simp [hn]
  · rw [if_neg hn]
    by_cases hl : UInt32.ofNat (checksumSize + size) + p.length > UInt32.ofNat maxDgramSize
    · rw [if_pos hl]
      rw [gt_iff_lt, UInt32.lt_iff_toNat_lt, hs, hm] at hl
      refine ⟨fun h => (by cases h), fun h => ?_⟩
      have hle : 20 + p.length.toNat ≤ 1024 := h.2.1
      omega
    · rw [if_neg hl, hs, ht]
      rw [gt_iff_lt, UInt32.lt_iff_toNat_lt, hs, hm] at hl
      by_cases hf : 20 + p.length.toNat ≤ (20 + p.length.toNat) % 2 ^ 32
      · rw [if_pos hf, Option.some.injEq, Except.ok.injEq, eq_comm]
        have hle : 20 + p.length.toNat ≤ 1024 := by omega
        exact ⟨fun h => ⟨hn, hle, h⟩, fun h => h.2.2⟩
      · rw [if_neg hf]
        refine ⟨fun h => (by cases h), fun h => ?_⟩
        have hle : 20 + p.length.toNat ≤ 1024 := h.2.1
        omega

lemma read_eq_error {datagram : Bytes} (hs : datagram.length ≤ maxDgramSize)
    (h : verifyChecksum (datagram.take checksumSize) (datagram.drop checksumSize) = false) :
    ∃ e, read datagram = .error e := by
  unfold read interpret
  rw [take_of_length_le hs, if_pos h]
  split_ifs
  all_goals exact ⟨_, rfl⟩

lemma accept_header (p : Packet) (hb : p.bytes.length = p.length.toNat) :
    ∃ q, accept p.header p.bytes = .ok q ∧ q.type = p.type ∧
      q.requestReplyID = p.requestReplyID ∧ q.length = p.length ∧ q.bytes = p.bytes := by
  have hm : ¬ p.header.magic ≠ magicKey := not_not_intro rfl
  have hl : ¬ p.header.length.toNat > p.bytes.length := hb.symm.not_gt
  have hs : ¬ p.header.length.toNat < p.bytes.length := hb.not_gt
  unfold accept
  rw [if_neg hm, dif_neg hl, dif_neg hs]
  refine ⟨_, rfl, rfl, rfl, rfl, ?_⟩
  unfold Packet.bytes
  dsimp only
  by_cases hz : p.header.length = 0
  · have hn : p.bytes = [] := eq_nil_of_length_eq_zero (hb.trans (congrArg _ hz))
    rw [if_pos hz]
    exact hn.symm
  · rw [if_neg hz]
    rfl

lemma read_createChecksum_append (hd : ¬ (0 < p.length ∧ p.data = none))
    (hle : checksumSize + (size + p.length.toNat) ≤ maxDgramSize) :
    ∃ q, read (createChecksum (content p) ++ content p) = .ok q ∧ q.type = p.type ∧
      q.requestReplyID = p.requestReplyID ∧ q.length = p.length ∧ q.bytes = p.bytes := by
  have hb := length_bytes hd
  have hlen : (createChecksum (content p) ++ content p).length =
      checksumSize + (size + p.length.toNat) := by
    rw [length_append, length_createChecksum, content, length_append, length_addToPacket, hb]
  have hh : extractFromPacket (content p) = p.header := extractFromPacket_append p.header p.bytes
  have hbo : (createChecksum (content p) ++ content p).drop (checksumSize + size) = p.bytes := by
    rw [← drop_drop, drop_left' (length_createChecksum _), content,
      drop_left' (length_addToPacket _)]
  have hne : createChecksum (content p) ++ content p ≠ [] := by
    rw [← length_pos_iff_ne_nil, hlen]
    exact Nat.lt_of_lt_of_le (by decide) (Nat.le_add_right _ _)
  unfold read interpret
  rw [if_neg hne, take_of_length_le (hlen.trans_le hle), take_left' (length_createChecksum _),
    drop_left' (length_createChecksum _), hh, hbo, if_neg (by omega), if_neg (by simp)]
  exact accept_header p hb

/-- **Datagrams**: a packet that is sent is received as it was, and if one byte of its datagram is
altered on the way it is not received at all. -/
theorem read_write (p : Packet) {datagram : Bytes} (h : write p = some (.ok datagram)) :
    (∃ q, read datagram = .ok q ∧ q.type = p.type ∧ q.requestReplyID = p.requestReplyID ∧
      q.length = p.length ∧ q.bytes = p.bytes) ∧
    ∀ (i : ℕ) (hi : i < datagram.length) (c : UInt8), c ≠ datagram[i] →
      ∃ e, read (datagram.set i c) = .error e := by
  obtain ⟨hd, hle, rfl⟩ := write_eq_ok_iff.mp h
  refine ⟨read_createChecksum_append hd hle, fun i hi c hc => ?_⟩
  refine read_eq_error ?_ (verifyChecksum_set hi hc)
  rw [length_set, length_append, length_createChecksum, content, length_append,
    length_addToPacket, length_bytes hd]
  exact hle

/-- A beacon's packet with a body of three bytes, one of them negative as a `char`. -/
def threeBytes : Packet where
  type := 7
  requestReplyID := 0
  length := 3
  data := some [1, 200, 3]
  counted := by simp

theorem read_write_threeBytes :
    ∃ datagram, write threeBytes = some (.ok datagram) ∧
      (∃ q, read datagram = .ok q ∧ q.type = 7 ∧ q.requestReplyID = 0 ∧ q.length = 3 ∧
        q.bytes = [1, 200, 3]) ∧
      ∀ (i : ℕ) (hi : i < datagram.length) (c : UInt8), c ≠ datagram[i] →
        ∃ e, read (datagram.set i c) = .error e :=
  ⟨_, rfl, read_write threeBytes rfl⟩

end Glomop.Network.Multicast
