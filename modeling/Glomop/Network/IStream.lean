import Glomop.Lib.Prog
import Glomop.Share.Defines

/-!
# Reading a packet: `IStream`

`IStream` is the cursor that every packet handler reads its packet through.  It carries formatting
state and a `good` flag, and reports failures through the thread's `Error::status`.  A stream is
modelled by how many bytes lie before the cursor and which lie behind it.  Reading `*current` one
past the last byte yields the parameter `past`, or faults where the packet is empty.  Extractions
take a variable's old value and return the new one, because a failed extraction leaves it alone.

`IStream.Shows` says what lies behind the cursor, and each `returns_` lemma what an operator makes
of it.  Source: `packet.h`, `packet.cc`.
-/

namespace Glomop

open Lib Prog UInt32
open List hiding get modify set

/-- No packet body is longer than this: a received length is handled as a signed 32-bit `int`,
and the buffer of an `OStream` stops doubling here. -/
abbrev maxPacketLength : ℕ := 2 ^ 31

/-- A packet as it reaches a handler.  `class gm_Packet`, `struct gm_PacketHeader`. -/
structure Packet where
  type : UInt32
  requestReplyID : UInt32
  data : Bytes
  length_le : data.length ≤ maxPacketLength
deriving DecidableEq

def Packet.getLength (p : Packet) : UInt32 := UInt32.ofNat p.data.length

/-- A stream reading a packet.  `class Stream`, `class IStream`. -/
@[ext] structure IStream where
  /-- The number of bytes before the cursor: `current - data`. -/
  consumed : ℕ
  rest : Bytes
  past : UInt8
  delimiter : UInt8
  stringWidth : UInt32
  isGood : Bool
  binaryMode : Bool
  /-- The thread's `Error::status`. -/
  status : Errors
  length_le : consumed + rest.length ≤ maxPacketLength

abbrev ReadM := Prog IStream

variable {α : Type} {s s' : IStream} {size : ℕ} {t : Bytes} {v : UInt32}

namespace IStream

/-- A new stream on a packet's body.  `IStream::IStream`. -/
def ofPacket (p : Packet) (past : UInt8) (status : Errors) : IStream where
  consumed := 0
  rest := p.data
  past := past
  delimiter := 0
  stringWidth := p.getLength
  isGood := true
  binaryMode := false
  status := status
  length_le := by simpa using p.length_le

def length (s : IStream) : UInt32 := UInt32.ofNat (s.consumed + s.rest.length)

/-- Move the cursor `n` bytes on, at most to the end of the packet. -/
def advance (s : IStream) (n : ℕ) : IStream where
  consumed := s.consumed + (s.rest.take n).length
  rest := s.rest.drop n
  past := s.past
  delimiter := s.delimiter
  stringWidth := s.stringWidth
  isGood := s.isGood
  binaryMode := s.binaryMode
  status := s.status
  length_le := by
    have h := s.length_le
    rw [← take_append_drop n s.rest, length_append] at h
    omega

@[simp] lemma advance_zero (s : IStream) : s.advance 0 = s := by
  ext <;> simp [advance]

def isDone (s : IStream) : Bool := s.rest.isEmpty

/-- The byte under the cursor, `*current`. -/
def peek (s : IStream) : Option UInt8 :=
  match s.rest with
  | c :: _ => some c
  | [] => if s.consumed = 0 then none else some s.past

/-! ## Manipulators -/

/-- Set the stream's state after an operation, and the thread's status if it failed.
`packet.cc` macro `StreamReturn`. -/
def streamReturn (errorCode : Errors) : ReadM Unit :=
  modify fun s =>
    if errorCode = .success then { s with isGood := true }
    else { s with isGood := false, status := errorCode }

def delimit (ch : UInt8) : ReadM Unit := modify fun s => { s with delimiter := ch }

def setW (width : UInt32) : ReadM Unit := modify fun s => { s with stringWidth := width }

def binary (flag : Bool) : ReadM Unit := modify fun s => { s with binaryMode := flag }

/-- `IStream::Skip_` with the macro `Skip`. It moves a stream that is no longer good just as
well. -/
def skip : ReadM Unit := modify fun s => if s.isDone then s else s.advance 1

/-- The copying loop of `operator >> (char*)`: up to the delimiter, the end of the packet, or
`room` characters. -/
def copyUntil (delimiter : UInt8) : ℕ → Bytes → Bytes
  | 0, _ => []
  | _ + 1, [] => []
  | room + 1, c :: cs => if c = delimiter then [] else c :: copyUntil delimiter room cs

/-- Extract a string into a `char[size]` array.  The delimiter is looked at but not consumed.
`IStream::operator >> (char*)`. -/
def inputString {size : ℕ} (string : CString size) : ReadM (CString size) := do
  let s ← get
  if s.isGood then
    -- getW() - 1 is computed in 32 bits: a width of 0 leaves the loop without a bound
    let chars := copyUntil s.delimiter (s.stringWidth - 1).toNat s.rest
    if h : chars.length < size then
      let c ← ofOption (s.advance chars.length).peek
      if c = s.delimiter then
        set (s.advance chars.length)
        streamReturn .success
      else if (s.advance chars.length).isDone then
        streamReturn .errFormattingError
      else
        streamReturn .errBufferOverflow
      return CString.ofBytes chars h
    else fault
  else return string

/-- Extract raw bytes. -/
def inputBinary (numberOfBytes : UInt32) : ReadM (Option Bytes) := do
  let s ← get
  if s.isGood then
    -- (current - data) + numberOfBytes is computed in 32 bits
    if UInt32.ofNat s.consumed + numberOfBytes > s.length then
      streamReturn .errFormattingError
      return none
    else if numberOfBytes.toNat ≤ s.rest.length then
      set (s.advance numberOfBytes.toNat)
      streamReturn .success
      return some (s.rest.take numberOfBytes.toNat)
    else fault
  else return none

/-- Extract raw bytes, as `inputBinary` does. -/
def extract (extractLength : UInt32) : ReadM (Option Bytes) := do
  let s ← get
  if s.isGood then
    if UInt32.ofNat s.consumed + extractLength > s.length then
      streamReturn .errFormattingError
      return none
    else if extractLength.toNat ≤ s.rest.length then
      set (s.advance extractLength.toNat)
      return some (s.rest.take extractLength.toNat)
    else fault
  else return none

/-- `ntohl` of four bytes in memory. -/
def ntohl : Bytes → UInt32
  | [a, b, c, d] =>
    UInt32.ofNat (((a.toNat * 256 + b.toNat) * 256 + c.toNat) * 256 + d.toNat)
  | _ => 0

abbrev numberWidth : ℕ := 20

/-- Extract a number: four bytes in network order in binary mode, text up to the delimiter
otherwise.  `ofWord` casts the word of the binary mode and `scan` is the conversion of the text
mode; `value` is the variable's old value.  `IStream::operator >> (int&)`,
`IStream::operator >> (UINT32&)`. -/
def inputNumber {α : Type} (ofWord : UInt32 → α) (scan : Bytes → Option α) (value : α) :
    ReadM α := do
  let s ← get
  if s.isGood then
    if s.binaryMode then
      match ← inputBinary 4 with
      | none => return value
      | some bytes => return ofWord (ntohl bytes)
    else
      let origGetW := s.stringWidth
      setW (UInt32.ofNat numberWidth)
      let text ← inputString (CString.empty numberWidth)
      setW origGetW
      let s ← get
      if s.isGood then
        match scan text.chars with
        | none =>
          streamReturn .errFormattingError
          return value
        | some v => return v
      else return value
  else return value

/-- `IStream::operator >> (int&)`. -/
def inputInt (value : Int32) : ReadM Int32 := inputNumber UInt32.toInt32 scanInt value

/-- `IStream::operator >> (UINT32&)`. -/
def inputUInt32 (value : UInt32) : ReadM UInt32 := inputNumber id scanUInt32 value

/-! ## What the operators make of well-formed input -/

/-- The stream is good, set up with the given delimiter, width and mode, and `rest` lies behind
its cursor; the thread's status is `status`. -/
structure Shows (s : IStream) (delimiter : UInt8) (stringWidth : UInt32) (binaryMode : Bool)
    (rest : Bytes) (status : Errors) : Prop where
  good : s.isGood = true
  delimiter_eq : s.delimiter = delimiter
  width_eq : s.stringWidth = stringWidth
  mode_eq : s.binaryMode = binaryMode
  rest_eq : s.rest = rest
  status_eq : s.status = status

section Shows

variable {s : IStream} {d : UInt8} {w : UInt32} {b : Bool} {r : Bytes} {st : Errors}

lemma Shows.advance (h : s.Shows d w b (t ++ r) st) : (s.advance t.length).Shows d w b r st where
  good := h.good
  delimiter_eq := h.delimiter_eq
  width_eq := h.width_eq
  mode_eq := h.mode_eq
  rest_eq := by simp [IStream.advance, h.rest_eq]
  status_eq := h.status_eq

section

variable (h : s.Shows d w b r st)

include h

lemma returns_delimit (d' : UInt8) : Prog.Returns (delimit d') s () (·.Shows d' w b r st) :=
  ⟨_, rfl, { h with delimiter_eq := rfl }⟩

lemma returns_setW (w' : UInt32) : Prog.Returns (setW w') s () (·.Shows d w' b r st) :=
  ⟨_, rfl, { h with width_eq := rfl }⟩

lemma returns_binary (b' : Bool) : Prog.Returns (binary b') s () (·.Shows d w b' r st) :=
  ⟨_, rfl, { h with mode_eq := rfl }⟩

lemma returns_streamReturn_success :
    Prog.Returns (streamReturn .success) s () (·.Shows d w b r st) :=
  ⟨_, rfl, { h with good := rfl }⟩

lemma returns_get : Prog.Returns (get : ReadM IStream) s s (·.Shows d w b r st) := ⟨s, rfl, h⟩

end

lemma returns_skip {c : UInt8} (h : s.Shows d w b (c :: r) st) :
    Prog.Returns skip s () (·.Shows d w b r st) := by
  have hd : s.isDone = false := by simp [isDone, h.rest_eq]
  refine ⟨s.advance 1, ?_, Shows.advance (t := [c]) h⟩
  simp [skip, hd]

lemma copyUntil_eq (d : UInt8) (room : ℕ) (cs : Bytes) :
    copyUntil d room cs = (cs.takeWhile (· ≠ d)).take room := by
  induction room generalizing cs with
  | zero => rfl
  | succ room ih =>
    cases cs with
    | nil => rfl
    | cons c cs =>
      rw [copyUntil]
      split_ifs with hc
      · simp [hc]
      · rw [takeWhile_cons_of_pos (by simpa using hc), take_succ_cons, ih]

lemma copyUntil_append (hd : d ∉ t) (r : Bytes) {room : ℕ} (hr : t.length ≤ room) :
    copyUntil d room (t ++ d :: r) = t := by
  rw [copyUntil_eq, takeWhile_append_of_pos fun c hc => by simpa using ne_of_mem_of_not_mem hc hd]
  simpa using hr

/-- **A delimited string is extracted whole**, up to its delimiter. -/
theorem returns_inputString_chars {size : ℕ} {t : Bytes} {old : CString size}
    (h : s.Shows d w b (t ++ d :: r) st) (hd : d ∉ t) (hw : t.length < w.toNat)
    (hs : t.length < size) :
    Prog.Returns (inputString old) s (CString.ofBytes t hs) (·.Shows d w b (d :: r) st) := by
  have hr : (w - 1).toNat = w.toNat - 1 :=
    UInt32.toNat_sub_of_le w 1 (le_iff_toNat_le.mpr (by simp; omega))
  have hc : copyUntil d (w - 1).toNat (t ++ d :: r) = t := copyUntil_append hd r (by omega)
  have hs' : (s.advance t.length).Shows d w b (d :: r) st := h.advance
  have hp : (s.advance t.length).peek = some d := by simp [peek, hs'.rest_eq]
  unfold inputString
  refine .bind (returns_get h) fun s0 h0 => ?_
  rw [if_pos h.good]
  simp only [h.delimiter_eq, h.width_eq, h.rest_eq, hc, dif_pos hs]
  refine .bind (Returns.ofOption (Q := fun _ => True) hp trivial) fun s1 _ => ?_
  rw [if_pos rfl]
  refine .bind (Returns.set (Q := (·.Shows d w b (d :: r) st)) hs') fun s2 h2 => ?_
  refine .bind (returns_streamReturn_success h2) fun s3 h3 => ?_
  exact .pure _ h3

lemma returns_inputString_of_lt {t old : CString size} (h : s.Shows d w b (t.chars ++ d :: r) st)
    (hd : d ∉ t.chars) (hw : t.chars.length < w.toNat) :
    Prog.Returns (inputString old) s t (·.Shows d w b (d :: r) st) := by
  have hr : Prog.Returns (inputString old) s (CString.ofBytes t.chars t.fits)
      (·.Shows d w b (d :: r) st) := returns_inputString_chars h hd hw t.fits
  rwa [CString.ofBytes_chars] at hr

lemma returns_inputString {t old : CString size} (h : s.Shows d w b (t.chars ++ d :: r) st)
    (hd : d ∉ t.chars) (hw : size ≤ w.toNat) :
    Prog.Returns (inputString old) s t (·.Shows d w b (d :: r) st) :=
  returns_inputString_of_lt h hd (t.fits.trans_le hw)

variable {ofWord : UInt32 → α} {scan : Bytes → Option α} {old : α}

lemma returns_inputNumber_chars {v : α} (h : s.Shows d w false (t ++ d :: r) st) (hd : d ∉ t)
    (hlt : t.length < numberWidth) (hs : scan (cString t) = some v) :
    Prog.Returns (inputNumber ofWord scan old) s v (·.Shows d w false (d :: r) st) := by
  unfold inputNumber
  refine .bind (returns_get h) fun s0 h0 => ?_
  rw [if_pos h.good, if_neg (by simp [h.mode_eq]), h.width_eq]
  refine .bind (returns_setW h0 _) fun s1 h1 => ?_
  refine .bind (returns_inputString_chars h1 hd hlt hlt) fun s2 h2 => ?_
  refine .bind (returns_setW h2 w) fun s3 h3 => ?_
  refine .bind (returns_get h3) fun s4 h4 => ?_
  have hs' : scan (CString.ofBytes t hlt).chars = some v := hs
  rw [if_pos h3.good, hs']
  exact .pure v h4

def Separates (d : UInt8) : Prop := d ≠ 45 ∧ isDigit d = false

lemma separates_bar : Separates bar := ⟨by decide, by decide⟩

lemma separates_nul : Separates 0 := ⟨by decide, by decide⟩

lemma Separates.not_mem_printInt (hd : Separates d) (v : Int32) : d ∉ printInt v := by
  intro h
  rcases mem_printInt h with h | h
  · exact hd.1 h
  · exact absurd (hd.2.symm.trans h) (by simp)

lemma Separates.not_mem_printUInt32 (hd : Separates d) (v : UInt32) : d ∉ printUInt32 v :=
  fun h => absurd (hd.2.symm.trans (mem_printUInt32 h)) (by simp)

/-- The text of an `int` fits the buffer it is read into. -/
def intText (v : Int32) : CString numberWidth where
  chars := printInt v
  noNul := separates_nul.not_mem_printInt v
  fits := lt_of_le_of_lt (printInt_length_le v) (by decide)

/-- The text of a `UINT32` fits the buffer it is read into. -/
def uintText (v : UInt32) : CString numberWidth where
  chars := printUInt32 v
  noNul := separates_nul.not_mem_printUInt32 v
  fits := lt_of_le_of_lt (printUInt32_length_le v) (by decide)

lemma returns_inputUInt32 {old : UInt32} (hd : Separates d)
    (h : s.Shows d w false (printUInt32 v ++ d :: r) st) :
    Prog.Returns (inputUInt32 old) s v (·.Shows d w false (d :: r) st) :=
  returns_inputNumber_chars h (hd.not_mem_printUInt32 v) (uintText v).fits
    ((cString_eq_self (uintText v).noNul).symm ▸ scanUInt32_printUInt32 v)

/-- `htonl`: the four bytes of a word in network order. -/
def htonl (v : UInt32) : Bytes :=
  [UInt8.ofNat (v.toNat / 256 ^ 3), UInt8.ofNat (v.toNat / 256 ^ 2), UInt8.ofNat (v.toNat / 256),
    UInt8.ofNat v.toNat]

lemma ntohl_htonl (v : UInt32) : ntohl (htonl v) = v := by
  have hlt := v.toNat_lt
  have hv : ((v.toNat / 256 ^ 3 % 256 * 256 + v.toNat / 256 ^ 2 % 256) * 256
      + v.toNat / 256 % 256) * 256 + v.toNat % 256 = v.toNat := by omega
  simp only [htonl, ntohl, UInt8.toNat_ofNat']
  rw [hv, UInt32.ofNat_toNat]

lemma not_gt_length (s : IStream) {n : ℕ} (hn : n ≤ s.rest.length) :
    ¬ ofNat s.consumed + ofNat n > s.length := by
  have hlen : s.consumed + s.rest.length ≤ 2 ^ 31 := s.length_le
  rw [gt_iff_lt, lt_iff_toNat_lt, length, UInt32.toNat_add, toNat_ofNat',
    toNat_ofNat', toNat_ofNat']
  omega

lemma returns_inputBinary (ht : t.length = 4) (h : s.Shows d w b (t ++ r) st) :
    Prog.Returns (inputBinary 4) s (some t) (·.Shows d w b r st) := by
  have hr : 4 ≤ s.rest.length := by
    rw [h.rest_eq, length_append, ht]
    omega
  have hs' : (s.advance 4).Shows d w b r st := ht ▸ h.advance
  have hta : s.rest.take 4 = t := by rw [h.rest_eq, take_left' ht]
  unfold inputBinary
  refine .bind (returns_get h) fun s0 h0 => ?_
  have hf : ¬ ofNat s.consumed + 4 > s.length := s.not_gt_length hr
  rw [if_pos h.good, if_neg hf, if_pos (by simpa using hr)]
  refine .bind (Returns.set (Q := (·.Shows d w b r st)) hs') fun s1 h1 => ?_
  refine .bind (returns_streamReturn_success h1) fun s2 h2 => ?_
  exact ⟨s2, by simp [hta], h2⟩

lemma returns_extract (h : s.Shows d w b (t ++ r) st) :
    Prog.Returns (extract (ofNat t.length)) s (some t) (·.Shows d w b r st) := by
  have hlen : s.consumed + s.rest.length ≤ 2 ^ 31 := s.length_le
  have hr : t.length ≤ s.rest.length := by
    rw [h.rest_eq, length_append]
    omega
  have hc : (ofNat t.length).toNat = t.length := by
    rw [toNat_ofNat']
    omega
  have ht : s.rest.take t.length = t := by rw [h.rest_eq, take_left]
  unfold extract
  refine .bind (returns_get h) fun s0 h0 => ?_
  rw [if_pos h.good, if_neg (s.not_gt_length hr), hc, if_pos hr, ht]
  refine .bind (Returns.set (Q := (·.Shows d w b r st)) h.advance) fun s1 h1 => ?_
  exact .pure _ h1

lemma returns_inputNumber_word (ht : t.length = 4) (h : s.Shows d w true (t ++ r) st) :
    Prog.Returns (inputNumber ofWord scan old) s (ofWord (ntohl t)) (·.Shows d w true r st) := by
  unfold inputNumber
  refine .bind (returns_get h) fun s0 h0 => ?_
  rw [if_pos h.good, if_pos h.mode_eq]
  refine .bind (returns_inputBinary ht h0) fun s1 h1 => ?_
  exact .pure _ h1

lemma returns_inputNumber_binary (h : s.Shows d w true (htonl v ++ r) st) :
    Prog.Returns (inputNumber ofWord scan old) s (ofWord v) (·.Shows d w true r st) := by
  have hr : Prog.Returns (inputNumber ofWord scan old) s (ofWord (ntohl (htonl v)))
      (·.Shows d w true r st) := returns_inputNumber_word rfl h
  rwa [ntohl_htonl] at hr

lemma returns_inputUInt32_binary {old : UInt32} (h : s.Shows d w true (htonl v ++ r) st) :
    Prog.Returns (inputUInt32 old) s v (·.Shows d w true r st) :=
  returns_inputNumber_binary h

lemma returns_inputInt_binary {v old : Int32} (h : s.Shows d w true (htonl v.toUInt32 ++ r) st) :
    Prog.Returns (inputInt old) s v (·.Shows d w true r st) := by
  have hw : v.toUInt32.toInt32 = v := by simp
  exact hw ▸ returns_inputNumber_binary h

end Shows

/-! ## What the operators may do to any stream

The good flag and the thread's status go together: an operator either leaves both alone or, on a
stream that was good, clears the flag and sets one of two statuses. -/

def IsFailure (status : Errors) : Prop :=
  status = .errFormattingError ∨ status = .errBufferOverflow

structure Reads (s s' : IStream) : Prop where
  size_eq : s'.consumed + s'.rest.length = s.consumed + s.rest.length
  report : (s'.isGood = s.isGood ∧ s'.status = s.status) ∨
    (s.isGood = true ∧ s'.isGood = false ∧ IsFailure s'.status)

instance : IsPreorder IStream Reads where
  refl _ := ⟨rfl, .inl ⟨rfl, rfl⟩⟩
  trans s s₁ s₂ h₁ h₂ := by
    refine ⟨h₂.size_eq.trans h₁.size_eq, ?_⟩
    rcases h₁.report with ⟨hgood₁, hstatus₁⟩ | ⟨hgood, hbad, hfailure⟩
    · rcases h₂.report with ⟨hgood₂, hstatus₂⟩ | ⟨hgood₂, hbad, hfailure⟩
      · exact .inl ⟨hgood₂.trans hgood₁, hstatus₂.trans hstatus₁⟩
      · exact .inr ⟨hgood₁ ▸ hgood₂, hbad, hfailure⟩
    · rcases h₂.report with ⟨hgood₂, hstatus₂⟩ | ⟨hgood₂, _, _⟩
      · exact .inr ⟨hgood, hgood₂.trans hbad, hstatus₂ ▸ hfailure⟩
      · rw [hbad] at hgood₂
        cases hgood₂

lemma Reads.isFailure (h : Reads s s') (hs : s.isGood = true) (hs' : s'.isGood = false) :
    IsFailure s'.status := by
  rcases h.report with ⟨hg, _⟩ | ⟨_, _, hf⟩
  · rw [hs, hs'] at hg
    cases hg
  · exact hf

lemma size_advance (s : IStream) (n : ℕ) :
    (s.advance n).consumed + (s.advance n).rest.length = s.consumed + s.rest.length := by
  have h := congrArg List.length (take_append_drop n s.rest)
  rw [length_append] at h
  simp only [advance]
  omega

lemma reads_delimit (ch : UInt8) : Prog.Within Reads (delimit ch) :=
  Within.modify fun _ => ⟨rfl, .inl ⟨rfl, rfl⟩⟩

lemma reads_setW (width : UInt32) : Prog.Within Reads (setW width) :=
  Within.modify fun _ => ⟨rfl, .inl ⟨rfl, rfl⟩⟩

lemma reads_binary (flag : Bool) : Prog.Within Reads (binary flag) :=
  Within.modify fun _ => ⟨rfl, .inl ⟨rfl, rfl⟩⟩

lemma reads_skip : Prog.Within Reads skip := by
  refine Within.modify fun s => ?_
  split_ifs
  · exact refl_of Reads s
  · exact ⟨size_advance s 1, .inl ⟨rfl, rfl⟩⟩

lemma Reads.failed {errorCode : Errors} {u : Unit} (hg : s.isGood = true)
    (he : IsFailure errorCode) (h : streamReturn errorCode s = some (u, s')) : Reads s s' := by
  have hne : errorCode ≠ .success := by
    rcases he with rfl | rfl <;> decide
  rw [streamReturn, modify_eq_some, if_neg hne] at h
  rw [h]
  exact ⟨rfl, .inr ⟨hg, rfl, he⟩⟩

lemma Reads.advanced {n : ℕ} {u : Unit} (hg : s.isGood = true)
    (h : streamReturn .success (s.advance n) = some (u, s')) : Reads s s' := by
  rw [streamReturn, modify_eq_some, if_pos rfl] at h
  rw [h]
  exact ⟨size_advance s n, .inl ⟨hg.symm, rfl⟩⟩

/-- The stream after a string of `n` characters, when `c` is the byte behind them. -/
def afterString (s : IStream) (n : ℕ) (c : UInt8) : IStream :=
  if c = s.delimiter then { s.advance n with isGood := true }
  else
    { s with
      isGood := false
      status := if (s.advance n).isDone then .errFormattingError else .errBufferOverflow }

lemma inputString_inv {string t : CString size} (hg : s.isGood = true)
    (h : inputString string s = some (t, s')) :
    let chars := copyUntil s.delimiter (s.stringWidth - 1).toNat s.rest
    ∃ (hf : chars.length < size) (c : UInt8), (s.advance chars.length).peek = some c ∧
      t = CString.ofBytes chars hf ∧ s' = s.afterString chars.length c := by
  intro chars
  unfold inputString at h
  rw [get_bind_run, if_pos hg] at h
  by_cases hf : chars.length < size
  · rw [dif_pos hf] at h
    obtain ⟨c, _, hp, h⟩ := bind_eq_some.mp h
    obtain ⟨hp, rfl⟩ := ofOption_eq_some.mp hp
    refine ⟨hf, c, hp, ?_⟩
    simp only [streamReturn, ite_eq_some, run_iff] at h
    unfold afterString
    rcases h with ⟨hc, rfl, rfl⟩ | ⟨hc, ⟨hd, rfl, rfl⟩ | ⟨hd, rfl, rfl⟩⟩
    · exact ⟨rfl, by rw [if_pos trivial, if_pos hc]⟩
    · exact ⟨rfl, by rw [if_neg (by decide), if_neg hc, if_pos hd]⟩
    · exact ⟨rfl, by rw [if_neg (by decide), if_neg hc, if_neg hd]⟩
  · rw [dif_neg hf] at h
    exact (fault_eq_some.mp h).elim

lemma inputString_not_good (string : CString size) (hg : ¬ s.isGood = true) :
    inputString string s = some (string, s) := by
  unfold inputString
  rw [get_bind_run, if_neg hg]
  rfl

lemma reads_afterString (hg : s.isGood = true) (n : ℕ) (c : UInt8) :
    Reads s (s.afterString n c) := by
  unfold afterString
  split_ifs
  · exact ⟨size_advance s n, .inl ⟨hg.symm, rfl⟩⟩
  · exact ⟨rfl, .inr ⟨hg, rfl, .inl rfl⟩⟩
  · exact ⟨rfl, .inr ⟨hg, rfl, .inr rfl⟩⟩

lemma reads_inputString (string : CString size) : Prog.Within Reads (inputString string) := by
  intro s a s' h
  by_cases hg : s.isGood = true
  · obtain ⟨_, c, _, _, rfl⟩ := inputString_inv hg h
    exact reads_afterString hg _ c
  · rw [inputString_not_good string hg] at h
    exact Within.pure string h

/-- **What is extracted lies before the delimiter**, whatever the packet contains. -/
theorem inputString_subset {string t : CString size} (h : inputString string s = some (t, s')) :
    t.chars ⊆ string.chars ++ s.rest.takeWhile (· ≠ s.delimiter) := by
  by_cases hg : s.isGood = true
  · obtain ⟨_, _, _, rfl, _⟩ := inputString_inv hg h
    intro c hc
    have hm := cString_subset _ hc
    rw [copyUntil_eq] at hm
    exact mem_append_right _ (mem_of_mem_take hm)
  · rw [inputString_not_good string hg] at h
    cases h
    exact subset_append_left _ _

lemma reads_inputBinary (numberOfBytes : UInt32) :
    Prog.Within Reads (inputBinary numberOfBytes) := by
  intro s a s' h
  simp only [inputBinary, ite_eq_some, fault_eq_some, and_false, or_false, run_iff] at h
  rcases h with ⟨hg, ⟨_, _, _, hr, _, rfl⟩ | ⟨_, _, _, _, hr, _, rfl⟩⟩ | ⟨_, _, rfl⟩
  · exact .failed hg (.inl rfl) hr
  · exact .advanced hg hr
  · exact refl_of Reads _

lemma reads_inputNumber (ofWord : UInt32 → α) (scan : Bytes → Option α) (value : α) :
    Prog.Within Reads (inputNumber ofWord scan value) := by
  refine .bind .get fun s => ?_
  split_ifs
  · apply Within.bind (reads_inputBinary 4)
    intro bytes
    cases bytes with
    | none => exact .pure value
    | some bytes => exact .pure _
  · refine .bind (reads_setW _) fun _ => .bind (reads_inputString _) fun text =>
      .bind (reads_setW _) fun _ => ?_
    intro s1 a s' h
    simp only [ite_eq_some, run_iff] at h
    rcases h with ⟨hg, h⟩ | ⟨_, _, rfl⟩
    · cases hs : scan text.chars with
      | none =>
        simp only [hs, run_iff] at h
        obtain ⟨_, _, hr, _, rfl⟩ := h
        exact .failed hg (.inl rfl) hr
      | some v =>
        rw [hs] at h
        exact Within.pure v h
    · exact refl_of Reads _
  · exact .pure value

lemma reads_inputInt (value : Int32) : Prog.Within Reads (inputInt value) :=
  reads_inputNumber _ _ value

lemma reads_inputUInt32 (value : UInt32) : Prog.Within Reads (inputUInt32 value) :=
  reads_inputNumber _ _ value

end IStream

end Glomop
