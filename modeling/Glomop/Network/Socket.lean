import Glomop.Lib.Run
import Glomop.Network.IStream

/-!
# Packets over a byte stream

`Socket::Write(gm_Packet*)` writes a packet as a header of sixteen bytes and a body, and
`Socket::Read(gm_Packet*, timeval*)` reads it back.  Nothing is assumed about how the bytes are cut.
The inner `Socket::Read` returns `0` for a timeout and for a `read()` that would block, whatever it
has consumed before, and the outer one takes that for a header.  With whole answers only, the
packets returned are those sent (`framed_of_run`).  Writes do not fail here, nor does `new` for a
body.  Source: `packet.h`, `packet.cc`.
-/

namespace Glomop.Network

open Lib List IStream

/-! ## Headers and packets -/

def magicKey : UInt32 := 0x12345678

/-- `struct gm_PacketHeader`. -/
@[ext] structure PacketHeader where
  magic : UInt32
  type : UInt32
  length : UInt32
  requestReplyID : UInt32
deriving DecidableEq

namespace PacketHeader

abbrev size : ℕ := 16

def addToPacket (h : PacketHeader) : Bytes :=
  htonl h.magic ++ (htonl h.type ++
    (htonl h.length ++ htonl h.requestReplyID))

def extractFromPacket (pktStream : Bytes) : PacketHeader where
  magic := ntohl (pktStream.take 4)
  type := ntohl ((pktStream.drop 4).take 4)
  length := ntohl ((pktStream.drop 8).take 4)
  requestReplyID := ntohl ((pktStream.drop 12).take 4)

@[simp] lemma length_addToPacket (h : PacketHeader) : h.addToPacket.length = size := rfl

/-- **A header is read back as it was written**, whatever stands behind it. -/
theorem extractFromPacket_append (h : PacketHeader) (rest : Bytes) :
    extractFromPacket (h.addToPacket ++ rest) = h := by
  ext1
  · exact ntohl_htonl h.magic
  · exact ntohl_htonl h.type
  · exact ntohl_htonl h.length
  · exact ntohl_htonl h.requestReplyID

@[simp] lemma extractFromPacket_addToPacket (h : PacketHeader) :
    extractFromPacket h.addToPacket = h := by
  have hr := extractFromPacket_append h []
  rwa [append_nil] at hr

lemma addToPacket_injective : Function.Injective addToPacket :=
  Function.LeftInverse.injective extractFromPacket_addToPacket

end PacketHeader

/-- A packet as it is given to `Socket::Write` and filled in by `Socket::Read`.
`class gm_Packet`. -/
structure Frame where
  type : UInt32
  requestReplyID : UInt32
  data : Bytes
deriving DecidableEq

namespace Frame

/-- `gm_Packet::gm_Packet`. -/
def header (p : Frame) : PacketHeader where
  magic := magicKey
  type := p.type
  length := UInt32.ofNat p.data.length
  requestReplyID := p.requestReplyID

/-- What `Socket::Write(pkt->data, pkt->header.length)` writes.  The length is passed as an `int`,
and the loop does nothing if that is negative.  `Socket::Write(gm_Packet*)`, `sockets.cc`
`Socket::Write`. -/
def body (p : Frame) : Bytes := if p.data.length < 2 ^ 31 then p.data else []

def wire (p : Frame) : Bytes := p.header.addToPacket ++ p.body

end Frame

/-! ## The two ends -/

/-- Where a call of `Socket::Read(gm_Packet*)` stands. -/
inductive Reader
  | idle
  /-- Reading the header: what the fresh buffer held, and what has been read into it. -/
  | header (stale got : Bytes)
  /-- Reading the body.  `cut`: the header was taken from a buffer that had not been filled. -/
  | body (header : PacketHeader) (cut : Bool) (got : Bytes)
deriving DecidableEq

/-- A connection, from the packets written to one end to the packets returned at the other. -/
structure Connection where
  /-- What the current call of `Socket::Write` has yet to write. -/
  sending : Bytes
  pipe : Bytes
  reader : Reader
  /-- The packets given to `Socket::Write`. -/
  sent : List Frame
  /-- The packets that calls of `Socket::Read` have returned with `gm_True`. -/
  returned : List Frame
  /-- Those of them that a call returned although it had timed out or found nothing to read. -/
  late : List Frame
deriving DecidableEq

open Connection

/-- How one iteration of the loop of `Socket::Read(char*, int, timeval*)` goes. -/
inductive Answer
  /-- `select` is interrupted, and the loop goes on. -/
  | interrupted
  | selectError
  /-- `select` times out, or uses up the time that was left. -/
  | timeout
  /-- `read` gives so many bytes. -/
  | bytes (n : ℕ)
  /-- `read` fails with `EAGAIN`. -/
  | wouldBlock
  /-- `read` fails with `ECONNRESET`, `EPIPE` or `ETIMEDOUT`. -/
  | reset
  | readError
  | endOfFile
deriving DecidableEq

/-- What the inner `Socket::Read` does after an iteration. -/
inductive Verdict
  | goesOn
  | takes (n : ℕ)
  /-- It returns `0`. -/
  | zero
  /-- It returns `-1`. -/
  | negative

/-- `sockets.cc` `Socket::Read`. -/
def Answer.verdict : Answer → Verdict
  | .interrupted => .goesOn
  -- Return(gm_False, errSocketReadError): gm_False is 0
  | .selectError => .zero
  | .timeout => .zero
  | .bytes n => .takes n
  | .wouldBlock => .zero
  | .reset => .negative
  | .readError => .negative
  | .endOfFile => .negative

inductive Event
  /-- `Socket::Write` is called. -/
  | write (p : Frame)
  /-- Its `write()` takes so many bytes. -/
  | push (n : ℕ)
  /-- `Socket::Read(gm_Packet*, timeval*)` is called; `new` gives it a buffer with some contents. -/
  | read (stale : Bytes)
  | answer (a : Answer)
deriving DecidableEq

variable {got stale : Bytes} {p : Frame}

namespace Connection

def new : Connection := ⟨[], [], .idle, [], [], []⟩

/-- `Socket::Read(gm_Packet*)` returns `gm_False`. -/
def fail (s : Connection) : Connection := { s with reader := .idle }

/-- `Socket::Read(gm_Packet*)` returns `gm_True`. -/
def deliver (s : Connection) (p : Frame) (cut : Bool) : Connection :=
  { s with
    reader := .idle
    returned := s.returned ++ [p]
    late := if cut then s.late ++ [p] else s.late }

/-- What `Socket::Read(gm_Packet*)` does with the buffer for the header.
`Socket::Read(gm_Packet*, timeval*)`. -/
def headerRead (s : Connection) (buffer : Bytes) (cut : Bool) : Connection :=
  let h := PacketHeader.extractFromPacket buffer
  if h.magic ≠ magicKey then s.fail
  else if h.length = 0 then s.deliver ⟨h.type, h.requestReplyID, []⟩ cut
  -- the length is passed as an int: if that is negative, nothing is read and the data is short
  else if 2 ^ 31 ≤ h.length.toNat then s.fail
  else { s with reader := .body h cut [] }

def take (s : Connection) (n : ℕ) : Connection := { s with pipe := s.pipe.drop n }

def headerAnswer (s : Connection) (stale got : Bytes) : Verdict → Option Connection
  | .goesOn => some s
  | .takes n =>
    if 0 < n ∧ n ≤ PacketHeader.size - got.length ∧ n ≤ s.pipe.length then
      let got' := got ++ s.pipe.take n
      if got'.length = PacketHeader.size then some ((s.take n).headerRead got' false)
      else some { s.take n with reader := .header stale got' }
    else none
  -- only a negative number is taken for a failure
  | .zero => some (s.headerRead (got ++ stale.drop got.length) true)
  | .negative => some s.fail

def bodyAnswer (s : Connection) (h : PacketHeader) (cut : Bool) (got : Bytes) :
    Verdict → Option Connection
  | .goesOn => some s
  | .takes n =>
    if 0 < n ∧ n ≤ h.length.toNat - got.length ∧ n ≤ s.pipe.length then
      let got' := got ++ s.pipe.take n
      if got'.length = h.length.toNat then
        some ((s.take n).deliver ⟨h.type, h.requestReplyID, got'⟩ cut)
      else some { s.take n with reader := .body h cut got' }
    else none
  | .zero => some s.fail
  | .negative => some s.fail

/-- One step of a connection; `none` where it is not possible.  `Socket::Write(gm_Packet*)`,
`Socket::Read(gm_Packet*, timeval*)`; `sockets.cc` `Socket::Write`, `Socket::Read`. -/
def next (s : Connection) : Event → Option Connection
  | .write p =>
    if s.sending = [] ∧ p.data.length < 2 ^ 32 then
      some { s with sending := p.wire, sent := s.sent ++ [p] }
    else none
  | .push n =>
    if 0 < n ∧ n ≤ s.sending.length then
      some { s with sending := s.sending.drop n, pipe := s.pipe ++ s.sending.take n }
    else none
  | .read stale =>
    if s.reader = .idle ∧ stale.length = PacketHeader.size then
      some { s with reader := .header stale [] }
    else none
  | .answer a =>
    match s.reader with
    | .idle => none
    | .header stale got => s.headerAnswer stale got a.verdict
    | .body h cut got => s.bodyAnswer h cut got a.verdict

def step (s : Connection) (e : Event) (s' : Connection) : Prop := s.next e = some s'

/-- The packets returned are the first of those sent, and no call that was cut short returned
one. -/
def Framed (s : Connection) : Prop := s.returned <+: s.sent ∧ s.late = []

instance (s : Connection) : Decidable s.Framed :=
  inferInstanceAs (Decidable (s.returned <+: s.sent ∧ s.late = []))

def untouched : Reader → Option Bytes
  | .header stale [] => some stale
  | _ => none

lemma untouched_header {stale' : Bytes} :
    untouched (.header stale got) = some stale' ↔ got = [] ∧ stale = stale' := by
  cases got <;> simp [untouched]

/-- What the condition asks of an iteration: once a packet has begun only data may come; before,
nothing may come at all only if the fresh buffer does not look like a header. -/
def WholeAnswer (r : Reader) : Verdict → Prop
  | .goesOn => True
  | .takes _ => True
  | .zero => (untouched r).any fun stale =>
    (PacketHeader.extractFromPacket stale).magic ≠ magicKey
  | .negative => (untouched r).isSome

/-- The condition on a step: packets are shorter than `2 ^ 31` bytes, and reading them is not
interrupted. -/
def Whole (s : Connection) : Event → Prop
  | .write p => p.data.length < 2 ^ 31
  | .push _ => True
  | .read _ => True
  | .answer a => WholeAnswer s.reader a.verdict

instance (r : Reader) : ∀ v, Decidable (WholeAnswer r v)
  | .goesOn | .takes _ => inferInstanceAs (Decidable True)
  | .zero => inferInstanceAs (Decidable ((untouched r).any _ = true))
  | .negative => inferInstanceAs (Decidable ((untouched r).isSome = true))

instance (s : Connection) : ∀ e, Decidable (s.Whole e)
  | .write p => inferInstanceAs (Decidable (p.data.length < 2 ^ 31))
  | .push _ | .read _ => inferInstanceAs (Decidable True)
  | .answer a => inferInstanceAs (Decidable (WholeAnswer s.reader a.verdict))

/-! ## Where the bytes are -/

def held : Reader → Bytes
  | .idle => []
  | .header _ got => got
  | .body h _ got => h.addToPacket ++ got

def Sound : Reader → Prop
  | .idle => True
  | .header _ got => got.length < PacketHeader.size
  | .body h cut got => h.length.toNat < 2 ^ 31 ∧ got.length < h.length.toNat ∧ cut = false

/-- **The bytes not yet returned** are those of the packets not yet returned: what the reader holds,
what is in the pipe and what is being written, in this order. -/
structure InStep (s : Connection) : Prop where
  flow : ∃ rest, s.sent = s.returned ++ rest ∧ (∀ p ∈ rest, p.data.length < 2 ^ 31) ∧
    held s.reader ++ (s.pipe ++ s.sending) = (rest.map Frame.wire).flatten
  sound : Sound s.reader
  late : s.late = []

lemma InStep.framed {s : Connection} (h : s.InStep) : s.Framed := by
  obtain ⟨rest, hs, _⟩ := h.flow
  exact ⟨⟨rest, hs.symm⟩, h.late⟩

lemma inStep_new : InStep new where
  flow := ⟨[], rfl, fun _ hp => absurd hp not_mem_nil, rfl⟩
  sound := trivial
  late := rfl

lemma exists_of_header {t : Bytes} {rest : List Frame} (hlen : got.length = PacketHeader.size)
    (h : got ++ t = (rest.map Frame.wire).flatten) :
    ∃ p ps, rest = p :: ps ∧ got = p.header.addToPacket ∧
      t = p.body ++ (ps.map Frame.wire).flatten := by
  cases rest with
  | nil =>
    have hn := congrArg List.length h
    rw [length_append, hlen] at hn
    exact absurd hn (by simp)
  | cons p ps =>
    rw [map_cons, flatten_cons, Frame.wire, append_assoc] at h
    obtain ⟨hg, ht⟩ := append_inj h (hlen.trans (PacketHeader.length_addToPacket _).symm)
    exact ⟨p, ps, rfl, hg, ht⟩

lemma body_eq (h : p.data.length < 2 ^ 31) : p.body = p.data := if_pos h

lemma toNat_length (h : p.data.length < 2 ^ 31) : p.header.length.toNat = p.data.length := by
  change (UInt32.ofNat p.data.length).toNat = p.data.length
  rw [UInt32.toNat_ofNat']
  omega

section Steps

variable {s s' : Connection}

lemma InStep.fail (h : s.InStep) (hre : untouched s.reader = some stale) : s.fail.InStep := by
  obtain ⟨rest, hse, hs, hf⟩ := h.flow
  have hh : held s.reader = [] := by
    unfold untouched at hre
    split at hre
    · rename_i hr
      rw [hr]
      rfl
    · cases hre
  rw [hh] at hf
  exact ⟨⟨rest, hse, hs, hf⟩, trivial, h.late⟩

lemma InStep.deliver {ps : List Frame} (hse : s.sent = s.returned ++ p :: ps)
    (hs : ∀ p ∈ ps, p.data.length < 2 ^ 31)
    (hf : s.pipe ++ s.sending = (ps.map Frame.wire).flatten) (hl : s.late = []) :
    (s.deliver p false).InStep where
  flow := by
    refine ⟨ps, ?_, hs, hf⟩
    change s.sent = (s.returned ++ [p]) ++ ps
    rw [hse, append_assoc]
    rfl
  sound := trivial
  late := hl

/-- **The header is complete.** -/
theorem InStep.headerRead {rest : List Frame} (hlen : got.length = PacketHeader.size)
    (hse : s.sent = s.returned ++ rest) (hs : ∀ p ∈ rest, p.data.length < 2 ^ 31)
    (hf : got ++ (s.pipe ++ s.sending) = (rest.map Frame.wire).flatten) (hla : s.late = []) :
    (s.headerRead got false).InStep := by
  obtain ⟨p, ps, rfl, rfl, ht⟩ := exists_of_header hlen hf
  have hp := hs p (.head _)
  have hps : ∀ q ∈ ps, q.data.length < 2 ^ 31 := fun q hq => hs q (.tail p hq)
  have hl := toNat_length hp
  rw [body_eq hp] at ht
  unfold headerRead
  rw [PacketHeader.extractFromPacket_addToPacket, if_neg (by simp [Frame.header])]
  by_cases hz : p.header.length = 0
  · have hd : p.data = [] := by
      rw [hz] at hl
      exact length_eq_zero_iff.mp hl.symm
    rw [if_pos hz]
    have hpa : (⟨p.header.type, p.header.requestReplyID, []⟩ : Frame) = p := by
      rw [← hd]
      rfl
    rw [hd, nil_append] at ht
    rw [hpa]
    exact .deliver hse hps ht hla
  · have hpos : p.header.length.toNat ≠ 0 := fun h0 => hz (UInt32.toNat_inj.mp h0)
    rw [if_neg hz, if_neg (by omega)]
    refine ⟨⟨p :: ps, hse, hs, ?_⟩, ⟨by omega, Nat.pos_of_ne_zero hpos, rfl⟩, hla⟩
    change (p.header.addToPacket ++ []) ++ (s.pipe ++ s.sending) = _
    rw [append_nil]
    exact hf

lemma take_append (s : Connection) (n : ℕ) :
    (got ++ s.pipe.take n) ++ ((s.take n).pipe ++ (s.take n).sending) =
      got ++ (s.pipe ++ s.sending) := by
  change (got ++ s.pipe.take n) ++ (s.pipe.drop n ++ s.sending) = _
  rw [append_assoc, ← append_assoc (s.pipe.take n), take_append_drop]

lemma InStep.headerAnswer {v : Verdict} (h : s.InStep) (hr : s.reader = .header stale got)
    (hok : WholeAnswer s.reader v) (hs : s.headerAnswer stale got v = some s') : s'.InStep := by
  cases v with
  | goesOn => exact Option.some.inj hs ▸ h
  | takes n =>
    simp only [Connection.headerAnswer] at hs
    split_ifs at hs with hn hfu
    · obtain ⟨rest, hse, hsh, hfl⟩ := h.flow
      rw [hr] at hfl
      cases hs
      refine .headerRead hfu hse hsh ?_ h.late
      rw [take_append]
      exact hfl
    · obtain ⟨rest, hse, hsh, hfl⟩ := h.flow
      rw [hr] at hfl
      cases hs
      refine ⟨⟨rest, hse, hsh, ?_⟩, ?_, h.late⟩
      · exact (take_append s n).trans hfl
      · have hlen : (got ++ s.pipe.take n).length ≤ PacketHeader.size := by
          rw [length_append, length_take]
          have := h.sound
          rw [hr] at this
          change got.length < PacketHeader.size at this
          omega
        exact lt_of_le_of_ne hlen hfu
  | zero =>
    -- the buffer is taken for a header, but does not look like one
    obtain ⟨stale', hf, hm⟩ := (Option.any_eq_true _ _).mp hok
    rw [decide_eq_true_eq] at hm
    have hfa := h.fail hf
    rw [hr, untouched_header] at hf
    obtain ⟨rfl, rfl⟩ := hf
    cases hs
    unfold Connection.headerRead
    rw [nil_append, length_nil, drop_zero, if_pos hm]
    exact hfa
  | negative =>
    obtain ⟨stale', hf⟩ := Option.isSome_iff_exists.mp hok
    cases hs
    exact h.fail hf

lemma InStep.bodyAnswer {p : PacketHeader} {cut : Bool} {v : Verdict} (h : s.InStep)
    (hr : s.reader = .body p cut got) (hok : WholeAnswer s.reader v)
    (hs : s.bodyAnswer p cut got v = some s') : s'.InStep := by
  rw [hr] at hok
  cases v with
  | goesOn => exact Option.some.inj hs ▸ h
  | takes n =>
    obtain ⟨rest, hse, hsh, hf⟩ := h.flow
    have hso := h.sound
    rw [hr] at hf hso
    obtain ⟨hsm, hlt, rfl⟩ := hso
    have hf' : (p.addToPacket ++ (got ++ s.pipe.take n)) ++
        ((s.take n).pipe ++ (s.take n).sending) = (rest.map Frame.wire).flatten := by
      rw [← append_assoc p.addToPacket, take_append]
      exact hf
    simp only [Connection.bodyAnswer] at hs
    split_ifs at hs with hn hfu
    · rw [append_assoc] at hf'
      obtain ⟨q, qs, rfl, hq, ht⟩ := exists_of_header (PacketHeader.length_addToPacket p) hf'
      obtain rfl := PacketHeader.addToPacket_injective hq
      have hl := toNat_length (hsh q (.head _))
      rw [body_eq (hsh q mem_cons_self)] at ht
      obtain ⟨hd, hf''⟩ := append_inj ht (hfu.trans hl)
      cases hs
      have hp : (⟨q.header.type, q.header.requestReplyID, got ++ s.pipe.take n⟩ : Frame) = q := by
        rw [hd]
        rfl
      rw [hp]
      exact .deliver hse (fun q' hq' => hsh q' (.tail q hq')) hf'' h.late
    · cases hs
      refine ⟨⟨rest, hse, hsh, hf'⟩, ⟨hsm, ?_, rfl⟩, h.late⟩
      have hlen : (got ++ s.pipe.take n).length ≤ p.length.toNat := by
        rw [length_append, length_take]
        omega
      exact lt_of_le_of_ne hlen hfu
  | zero | negative => exact absurd hok (by simp [WholeAnswer, untouched])

/-- **A step that meets the condition keeps the two ends in step.** -/
theorem InStep.step {e : Event} (h : s.InStep) (hok : s.Whole e) (hs : s.step e s') :
    s'.InStep := by
  unfold Connection.step at hs
  cases e with
  | write p =>
    obtain ⟨rest, hse, hsh, hf⟩ := h.flow
    simp only [next] at hs
    split_ifs at hs with hi
    cases hs
    refine ⟨⟨rest ++ [p], ?_, ?_, ?_⟩, h.sound, h.late⟩
    · change s.sent ++ [p] = s.returned ++ (rest ++ [p])
      rw [hse, append_assoc]
    · intro q hq
      rcases mem_append.mp hq with hq | hq
      · exact hsh q hq
      · rw [mem_singleton.mp hq]
        exact hok
    · rw [hi.1, append_nil] at hf
      rw [map_append, flatten_append, ← hf]
      simp
  | push n =>
    obtain ⟨rest, hse, hsh, hf⟩ := h.flow
    simp only [next] at hs
    split_ifs at hs
    cases hs
    refine ⟨⟨rest, hse, hsh, ?_⟩, h.sound, h.late⟩
    rw [append_assoc, take_append_drop]
    exact hf
  | read stale =>
    obtain ⟨rest, hse, hsh, hf⟩ := h.flow
    simp only [next] at hs
    split_ifs at hs with hi
    cases hs
    rw [hi.1] at hf
    exact ⟨⟨rest, hse, hsh, hf⟩, Nat.zero_lt_succ 15, h.late⟩
  | answer a =>
    simp only [next] at hs
    cases hr : s.reader with
    | idle =>
      rw [hr] at hs
      cases hs
    | header stale got =>
      rw [hr] at hs
      exact h.headerAnswer hr hok hs
    | body p cut got =>
      rw [hr] at hs
      exact h.bodyAnswer hr hok hs

end Steps

/-- **The packets returned are those sent, in order**, in every run in which nothing but data comes
once a packet has begun. -/
theorem framed_of_run {s : Connection} {events : List Event}
    (h : Run (Guarded Whole step) new events s) : s.Framed :=
  (h.invariant (fun _ _ _ hs hst => hs.step hst.1 hst.2) inStep_new).framed

def zeros : Bytes := List.replicate PacketHeader.size 0

def sample : Frame := ⟨7, 1, [10, 20, 30]⟩

/-- A call that times out before the packet begins, and one that reads it in four pieces while it is
still being written. -/
theorem framed_of_run_pieces :
    ∃ s, Run (Guarded Whole step) new
        [.read zeros, .answer .timeout, .write sample, .push 10, .read zeros, .answer (.bytes 6),
          .push 9, .answer .interrupted, .answer (.bytes 10), .answer (.bytes 2),
          .answer (.bytes 1)] s ∧
      s.returned = [sample] ∧ s.Framed := by
  exact (exists_guarded_of_decide (by decide +kernel)).imp fun s h =>
    ⟨h.1, h.2, framed_of_run h.1⟩

/-- A call that times out after eight bytes of the header takes the rest of it from the fresh
buffer, and returns a packet of the right type, without a body and with the wrong identifier. -/
theorem timeout_yields_packet :
    ∃ s, Run step new
        [.write sample, .push 8, .read zeros, .answer (.bytes 8), .answer .timeout] s ∧
      s.returned = [⟨7, 0, []⟩] ∧ ¬ s.Framed :=
  exists_run_of_decide (by decide +kernel)

end Connection

end Glomop.Network
