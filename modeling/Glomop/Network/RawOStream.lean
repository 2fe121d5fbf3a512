import Glomop.Network.OStream

/-!
# `OStream` at the level of memory

The operators of `Glomop.Network.OStream` one level lower, on the memory that `data` points to, and
with the buffers that do not grow.  A write outside the buffer and a doubling loop that never ends
are faults; a bad stream ignores writes.  `Represents s o` connects the two levels, and every write
keeps it.  A fixed buffer refuses a write that does not fit, unless the 32-bit sum in the test wraps
around (`streams_right_iff`).  Source: `packet.cc`.
-/

namespace Glomop

open Lib IStream Prog UInt32 OStream
open List hiding get modify set

/-- What `new char[n]` returns: `NULL`, or memory with some contents. -/
abbrev Allocation := Option (ℕ → UInt8)

/-- `packet.h` `class Stream`, `class OStream`. -/
@[ext] structure RawOStream where
  /-- The memory that `data` points to, unless it is `NULL`. -/
  data : Option Bytes
  length : UInt32
  bytesWritten : UInt32
  isDynamic : Bool
  isGood : Bool
  binaryMode : Bool
  /-- The thread's `Error::status`. -/
  status : Errors

/-- What is written to a stream.  `int` and `INT32` are the same 32 bits and are written alike. -/
inductive Write
  /-- A string, the text up to its first NUL; or `NULL`. -/
  | string (text : Option Bytes)
  | char (ch : UInt8)
  | int (integer : Int32)
  | uint32 (uinteger : UInt32)
  | append (append : Bytes) (length_lt : append.length < 2 ^ 32)

/-- A write, with what `new` returns if it is called; or the manipulator `Binary`. -/
inductive StreamOp
  | write (allocation : Allocation) (w : Write)
  | binary (flag : Bool)

namespace RawOStream

abbrev RawWriteM := Prog RawOStream

/-- `OStream::OStream()`. -/
def new (allocation : Allocation) (status : Errors) : RawOStream :=
  match allocation with
  | none => ⟨none, 0, 0, true, false, false, .errOutOfMemory⟩
  | some memory => ⟨some (0 :: (List.range 63).map memory), 64, 0, true, true, false, status⟩

/-- A stream on a buffer of the caller's, who passes its length.
`OStream::OStream(char*, UINT32)`. -/
def ofBuffer (buffer : Bytes) (status : Errors) : Option RawOStream :=
  match buffer with
  | [] => none
  | _ :: rest =>
    some ⟨some (0 :: rest), UInt32.ofNat buffer.length, 0, false, true, false, status⟩

/-- `StreamReturn` with an error. -/
def refuse (error : Errors) : RawWriteM Unit :=
  modify fun s => { s with isGood := false, status := error }

/-- `StreamReturn` with `success`. -/
def succeed : RawWriteM Unit := modify fun s => { s with isGood := true }

def store (data : Bytes) (position : ℕ) (bytes : Bytes) : Option Bytes :=
  if position + bytes.length ≤ data.length then
    some (data.take position ++ bytes ++ data.drop (position + bytes.length))
  else none

/-- Copy bytes to `data + position`. -/
def copyTo (position : UInt32) (bytes : Bytes) : RawWriteM Unit := do
  let s ← get
  let data ← ofOption (s.data.bind fun data => store data position.toNat bytes)
  set { s with data := some data }

def copyOver (s : RawOStream) (data : Bytes) (length : UInt32) (memory : ℕ → UInt8) :
    Option Bytes :=
  let count := (s.bytesWritten + 1).toNat
  if count ≤ data.length then
    store ((List.range length.toNat).map memory) 0 (data.take count)
  else none

def growBufferToAtLeast (allocation : Allocation) (newLength : UInt32) : RawWriteM Bool := do
  let s ← get
  if s.isDynamic = false then
    refuse .errBufferOverflow
    return false
  else
    match s.data with
    | none =>
      refuse .errOutOfMemory
      return false
    | some data =>
      let length ← ofOption (growLength newLength growRounds s.length)
      match allocation with
      | none =>
        set { s with data := none, length := 0 }
        refuse .errOutOfMemory
        return false
      | some memory =>
        let newData ← ofOption (copyOver s data length memory)
        set { s with data := some newData, length := length }
        return true

def makeRoom (allocation : Allocation) (newLength : UInt32) : RawWriteM Bool := do
  let s ← get
  if newLength > s.length then growBufferToAtLeast allocation newLength else return true

/-- What the writing operators have in common: `copy` writes the bytes and the NUL behind them. -/
def put (allocation : Allocation) (numberOfBytes : UInt32) (copy : UInt32 → RawWriteM Unit) :
    RawWriteM Unit := do
  let s ← get
  if s.isGood then
    if ← makeRoom allocation (s.bytesWritten + numberOfBytes + 1) then
      copy s.bytesWritten
      modify fun s => { s with bytesWritten := s.bytesWritten + numberOfBytes }
      succeed

/-- `memcpy`, and the NUL. -/
def copyBinary (binaryData : Bytes) (position : UInt32) : RawWriteM Unit := do
  copyTo position binaryData
  copyTo (position + UInt32.ofNat binaryData.length) [0]

/-- `strcpy`. -/
def copyString (string : Bytes) (position : UInt32) : RawWriteM Unit :=
  copyTo position (string ++ [0])

def outputBinary (allocation : Allocation) (binaryData : Bytes) : RawWriteM Unit :=
  put allocation (UInt32.ofNat binaryData.length) (copyBinary binaryData)

/-- `OStream::operator << (const char*)`. -/
def outputString (allocation : Allocation) (string : Bytes) : RawWriteM Unit :=
  put allocation (UInt32.ofNat string.length) (copyString string)

/-- `OStream::operator << (char)`. -/
def outputChar (allocation : Allocation) (ch : UInt8) : RawWriteM Unit := do
  let s ← get
  if s.isGood then
    outputString allocation [32]
    let s' ← get
    if s'.isGood then copyTo s.bytesWritten [ch]

def outputNumber (allocation : Allocation) (word : UInt32) (text : Bytes) : RawWriteM Unit := do
  let s ← get
  if s.isGood then
    if s.binaryMode then outputBinary allocation (htonl word)
    else outputString allocation text

/-- `OStream::operator << (int)`. -/
def outputInt (allocation : Allocation) (integer : Int32) : RawWriteM Unit :=
  outputNumber allocation integer.toUInt32 (printInt integer)

/-- `OStream::operator << (UINT32)`. -/
def outputUInt32 (allocation : Allocation) (uinteger : UInt32) : RawWriteM Unit :=
  outputNumber allocation uinteger (printUInt32 uinteger)

def append (allocation : Allocation) (append : Bytes) : RawWriteM Unit :=
  outputBinary allocation append

def chars (text : Bytes) : Bytes := text.takeWhile (· ≠ 0)

def write (allocation : Allocation) : Write → RawWriteM Unit
  | .string none => pure ()
  | .string (some text) => outputString allocation (chars text)
  | .char ch => outputChar allocation ch
  | .int integer => outputInt allocation integer
  | .uint32 uinteger => outputUInt32 allocation uinteger
  | .append bytes _ => append allocation bytes

def run : StreamOp → RawWriteM Unit
  | .write allocation w => write allocation w
  | .binary flag => modify fun s => { s with binaryMode := flag }

def runAll : List StreamOp → RawWriteM Unit
  | [] => pure ()
  | op :: ops => do
    run op
    runAll ops

end RawOStream

/-! ## What is written -/

def Write.bytes (binaryMode : Bool) : Write → Bytes
  | .string none => []
  | .string (some text) => RawOStream.chars text
  | .char ch => [ch]
  | .int integer => if binaryMode then htonl integer.toUInt32 else printInt integer
  | .uint32 uinteger => if binaryMode then htonl uinteger else printUInt32 uinteger
  | .append bytes _ => bytes

def bytesOf : Bool → List StreamOp → Bytes
  | _, [] => []
  | mode, .write _ w :: ops => w.bytes mode ++ bytesOf mode ops
  | _, .binary flag :: ops => bytesOf flag ops

variable {bytes : Bytes}

namespace RawOStream

/-- **A stream holds the bytes written**: they are at the beginning of its memory, with a NUL behind
them, and its memory has `length` bytes. -/
structure Holds (s : RawOStream) (written : Bytes) : Prop where
  data : ∃ rest, s.data = some (written ++ 0 :: rest) ∧
    written.length + (rest.length + 1) = s.length.toNat
  bytesWritten : s.bytesWritten.toNat = written.length

/-! ## Copying -/

section Copying

variable {s : RawOStream} {written rest : Bytes}

lemma store_append {front tail : Bytes} (h : bytes.length ≤ tail.length) :
    store (front ++ tail) front.length bytes = some (front ++ bytes ++ tail.drop bytes.length) := by
  rw [store, if_pos (by simpa using h), take_left, drop_append]
  simp

lemma copyTo_run {data data' : Bytes} {position : UInt32} (hd : s.data = some data)
    (hs : store data position.toNat bytes = some data') :
    copyTo position bytes s = some ((), { s with data := some data' }) := by
  refine bind_eq_some.mpr ⟨s, s, rfl, bind_eq_some.mpr ⟨data', s, ?_, rfl⟩⟩
  simp [hd, hs]

def Copies (copy : UInt32 → RawWriteM Unit) (bytes : Bytes) : Prop :=
  ∀ s written rest, s.data = some (written ++ 0 :: rest) →
    s.bytesWritten.toNat = written.length → bytes.length ≤ rest.length →
    written.length + bytes.length < 2 ^ 32 →
    copy s.bytesWritten s =
      some ((), { s with data := some (written ++ bytes ++ 0 :: rest.drop bytes.length) })

lemma copies_string (string : Bytes) : Copies (copyString string) string := by
  intro s written rest hd hb hlen _
  refine copyTo_run hd ?_
  rw [hb, store_append (by simpa using hlen)]
  simp

lemma copies_binary (binaryData : Bytes) : Copies (copyBinary binaryData) binaryData := by
  intro s written rest hd hb hlen hw
  have hf : store (written ++ 0 :: rest) s.bytesWritten.toNat binaryData =
      some (written ++ binaryData ++ (0 :: rest).drop binaryData.length) := by
    rw [hb]
    exact store_append (by simpa using hlen.trans (Nat.le_succ _))
  have hp : (s.bytesWritten + ofNat binaryData.length).toNat = (written ++ binaryData).length := by
    rw [UInt32.toNat_add, toNat_ofNat', hb, length_append]
    omega
  have hs : store (written ++ binaryData ++ (0 :: rest).drop binaryData.length)
      (s.bytesWritten + ofNat binaryData.length).toNat [0] =
      some (written ++ binaryData ++ 0 :: rest.drop binaryData.length) := by
    rw [hp, store_append]
    · simp [drop_drop]
    · simp only [length_drop, length_cons, length_nil]
      omega
  exact (bind_run (copyTo_run hd hf) _).trans (copyTo_run rfl hs)

end Copying

/-! ## Making room -/

section Room

variable {s : RawOStream} {written : Bytes} {allocation : Allocation} {newLength : UInt32}

lemma makeRoom_of_le (h : ¬ newLength > s.length) :
    makeRoom allocation newLength s = some (true, s) := by
  refine (get_bind_run s _).trans ?_
  rw [if_neg h]
  rfl

lemma makeRoom_of_gt (h : newLength > s.length) :
    makeRoom allocation newLength s = growBufferToAtLeast allocation newLength s := by
  refine (get_bind_run s _).trans ?_
  rw [if_pos h]

def refused (s : RawOStream) : RawOStream :=
  { s with isGood := false, status := .errBufferOverflow }

lemma Holds.copyOver (h : s.Holds written) {rest : Bytes} {length : UInt32}
    (hle : s.length.toNat ≤ length.toNat)
    (hlen : written.length + (rest.length + 1) = s.length.toNat) (memory : ℕ → UInt8) :
    ∃ rest', copyOver s (written ++ 0 :: rest) length memory = some (written ++ 0 :: rest') ∧
      written.length + (rest'.length + 1) = length.toNat := by
  have hlt := s.length.toNat_lt
  have hc : (s.bytesWritten + 1).toNat = (written ++ [0]).length := by
    have h1 : (1 : UInt32).toNat = 1 := rfl
    rw [UInt32.toNat_add, h.bytesWritten, h1, length_append, length_singleton]
    omega
  have ht : (written ++ 0 :: rest).take (written ++ [0]).length = written ++ [0] := by
    rw [append_cons written 0 rest, take_left]
  have hm : ((range length.toNat).map memory).length = length.toNat := by simp
  refine ⟨((range length.toNat).map memory).drop (written ++ [0]).length, ?_, ?_⟩
  · unfold RawOStream.copyOver
    dsimp only
    rw [hc, ht, if_pos (by simp), store, if_pos]
    · simp
    · rw [hm, length_append, length_singleton]
      omega
  · rw [length_drop, hm, length_append, length_singleton]
    omega

lemma Holds.grow (h : s.Holds written) (hd : s.isDynamic = true) {length : UInt32}
    (hg : growLength newLength growRounds s.length = some length)
    (hle : s.length.toNat ≤ length.toNat) :
    (∃ s', growBufferToAtLeast none newLength s = some (false, s') ∧ s'.isGood = false) ∧
    ∀ memory, ∃ data, growBufferToAtLeast (some memory) newLength s =
        some (true, { s with data := some data, length := length }) ∧
      Holds { s with data := some data, length := length } written := by
  obtain ⟨rest, hda, hlen⟩ := h.data
  have hs : ∀ allocation, growBufferToAtLeast allocation newLength s = _ :=
    fun allocation => get_bind_run s _
  constructor
  · refine ⟨{ s with data := none, length := 0, isGood := false, status := .errOutOfMemory }, ?_,
      rfl⟩
    rw [hs, if_neg (by simp [hd]), hda]
    exact bind_run (ofOption_eq_some.mpr ⟨hg, rfl⟩) _
  · intro memory
    obtain ⟨rest', hc, hl'⟩ := h.copyOver hle hlen memory
    refine ⟨written ++ 0 :: rest', ?_, ⟨rest', rfl, hl'⟩, h.bytesWritten⟩
    rw [hs, if_neg (by simp [hd]), hda]
    exact (bind_run (ofOption_eq_some.mpr ⟨hg, rfl⟩) _).trans
      (bind_run (ofOption_eq_some.mpr ⟨hc, rfl⟩) _)

end Room

/-! ## One write -/

section Put

variable {s s1 s' : RawOStream} {written bytes : Bytes} {allocation : Allocation}
  {numberOfBytes : UInt32} {copy : UInt32 → RawWriteM Unit}

lemma put_bad (h : s.isGood = false) : put allocation numberOfBytes copy s = some ((), s) := by
  refine (get_bind_run s _).trans ?_
  rw [if_neg (by simp [h])]
  rfl

lemma put_good (h : s.isGood = true) :
    put allocation numberOfBytes copy s =
      (makeRoom allocation (s.bytesWritten + numberOfBytes + 1) >>= fun room =>
        if room then do
          copy s.bytesWritten
          modify fun s => { s with bytesWritten := s.bytesWritten + numberOfBytes }
          succeed
        else pure () : RawWriteM Unit) s := by
  refine (get_bind_run s _).trans ?_
  rw [if_pos h]

lemma put_no_room (h : s.isGood = true)
    (hr : makeRoom allocation (s.bytesWritten + numberOfBytes + 1) s = some (false, s1)) :
    put allocation numberOfBytes copy s = some ((), s1) := by
  rw [put_good h, bind_run hr]
  rfl

/-- **A write for which there is room.** -/
theorem Holds.put (hc : Copies copy bytes) (hg : s.isGood = true)
    (hr : makeRoom allocation (s.bytesWritten + ofNat bytes.length + 1) s = some (true, s1))
    (hs : s1.bytesWritten = s.bytesWritten) (h : s1.Holds written)
    (hf : written.length + bytes.length + 1 ≤ s1.length.toNat) :
    ∃ s', put allocation (ofNat bytes.length) copy s = some ((), s') ∧
      s'.Holds (written ++ bytes) ∧ s'.length = s1.length ∧ s'.isDynamic = s1.isDynamic ∧
      s'.isGood = true ∧ s'.binaryMode = s1.binaryMode := by
  obtain ⟨rest, hd, hlen⟩ := h.data
  have hlt := s1.length.toNat_lt
  have hrun := hc s1 written rest hd h.bytesWritten (by omega) (by omega)
  refine ⟨{ s1 with
      data := some (written ++ bytes ++ 0 :: rest.drop bytes.length)
      bytesWritten := s1.bytesWritten + ofNat bytes.length
      isGood := true }, ?_, ⟨⟨_, rfl, ?_⟩, ?_⟩, rfl, rfl, rfl, rfl⟩
  · rw [put_good hg, bind_run hr, if_pos rfl, ← hs, bind_run hrun]
    rfl
  · rw [length_append, length_drop]
    dsimp only
    omega
  · rw [UInt32.toNat_add, toNat_ofNat', h.bytesWritten, length_append]
    omega

lemma isGood_of_put (hg : s.isGood = true) (hle : ¬ s.bytesWritten + numberOfBytes + 1 > s.length)
    (hrun : put allocation numberOfBytes copy s = some ((), s')) : s'.isGood = true := by
  rw [put_good hg, bind_run (makeRoom_of_le hle), if_pos rfl] at hrun
  simp only [succeed, run_iff] at hrun
  obtain ⟨-, -, -, -, -, -, rfl⟩ := hrun
  rfl

end Put

/-! ## The two levels -/

structure Represents (s : RawOStream) (o : OStream) : Prop where
  holds : s.Holds o.written
  length : s.length = o.length
  isDynamic : s.isDynamic = true
  isGood : s.isGood = true
  binaryMode : s.binaryMode = o.binaryMode

def Follows (allocation : Allocation) (s : RawOStream) (o : OStream) : Prop :=
  s.Represents o ∨ (allocation = none ∧ s.isGood = false)

end RawOStream

lemma OStream.outputBinary_cases {o o' : OStream}
    (h : outputBinary bytes o = some ((), o')) :
    o'.written = o.written ++ bytes ∧ o'.binaryMode = o.binaryMode ∧
      ((¬ ofNat o.written.length + ofNat bytes.length + 1 > o.length ∧ o'.length = o.length) ∨
        (ofNat o.written.length + ofNat bytes.length + 1 > o.length ∧
          growLength (ofNat o.written.length + ofNat bytes.length + 1) growRounds
            o.length = some o'.length)) := by
  simp only [outputBinary, makeRoom, ite_eq_some, run_iff] at h
  obtain ⟨_, o1, hr, hse⟩ := h
  split_ifs at hse with hf
  · obtain rfl := set_eq_some.mp hse
    rcases hr with ⟨hgt, hg⟩ | ⟨hle, -, rfl⟩
    · unfold growBufferToAtLeast at hg
      split at hg
      · cases hg
      · next l hl =>
          cases hg
          exact ⟨rfl, rfl, .inr ⟨hgt, hl⟩⟩
    · exact ⟨rfl, rfl, .inl ⟨hle, rfl⟩⟩
  · simp at hse

namespace OStream

lemma poke_cases {position : ℕ} {o o' : OStream} (h : poke position bytes o = some ((), o')) :
    o'.written = o.written.take position ++ bytes ++ o.written.drop (position + bytes.length) ∧
      o'.length = o.length ∧ o'.binaryMode = o.binaryMode := by
  simp only [poke, run_iff] at h
  split_ifs at h
  · obtain rfl := set_eq_some.mp h
    exact ⟨rfl, rfl, rfl⟩
  · simp at h

def write : Write → WriteM Unit
  | .string none => pure ()
  | .string (some text) => outputBinary (RawOStream.chars text)
  | .char ch => outputChar ch
  | .int integer => outputInt integer
  | .uint32 uinteger => outputUInt32 uinteger
  | .append bytes _ => append bytes

def run : StreamOp → WriteM Unit
  | .write _ w => write w
  | .binary flag => binary flag

def runAll : List StreamOp → WriteM Unit
  | [] => pure ()
  | op :: ops => do
    run op
    runAll ops

lemma Emits.write (m : Bool) (w : Write) : Emits m m (write w) (w.bytes m) := by
  cases w with
  | string text =>
    cases text with
    | none => exact Emits.pure m
    | some text => exact Emits.outputBinary m _
  | char ch => exact Emits.outputChar m ch
  | int integer => exact Emits.outputInt m integer
  | uint32 uinteger => exact Emits.outputUInt32 m uinteger
  | append bytes _ => exact Emits.append m bytes

lemma exists_emits_runAll (m : Bool) (ops : List StreamOp) :
    ∃ m', Emits m m' (runAll ops) (bytesOf m ops) := by
  induction ops generalizing m with
  | nil => exact ⟨m, Emits.pure m⟩
  | cons op ops ih =>
    cases op with
    | write allocation w =>
      obtain ⟨m', hops⟩ := ih m
      exact ⟨m', (Emits.write m w).seq hops⟩
    | binary flag =>
      obtain ⟨m', hops⟩ := ih flag
      exact ⟨m', (Emits.binary m flag).seq hops⟩

end OStream

namespace RawOStream

section Simulation

variable {s s' : RawOStream} {o o' : OStream} {bytes : Bytes} {copy : UInt32 → RawWriteM Unit}

section

variable (h : s.Represents o)

include h

lemma Represents.bytesWritten : s.bytesWritten = ofNat o.written.length := by
  rw [← h.holds.bytesWritten, UInt32.ofNat_toNat]

/-- **Bytes.** -/
theorem Represents.put (hco : Copies copy bytes)
    (ho : o.outputBinary bytes = some ((), o')) (allocation : Allocation) :
    ∃ s', put allocation (ofNat bytes.length) copy s = some ((), s') ∧
      Follows allocation s' o' := by
  obtain ⟨hw, hm, hc⟩ := outputBinary_cases ho
  rw [← h.bytesWritten, ← h.length] at hc
  have hf : o.written.length + bytes.length + 1 ≤ o'.length.toNat := by
    have hlt := o'.fits
    rwa [hw, length_append] at hlt
  rcases hc with ⟨hle, hl⟩ | ⟨hgt, hgr⟩
  · obtain ⟨s', hrun, hh, hl', hd, hg, hm'⟩ :=
      Holds.put hco h.isGood (makeRoom_of_le hle) rfl h.holds (hl ▸ hf)
    exact ⟨s', hrun, .inl ⟨hw ▸ hh, hl'.trans hl.symm,
      hd.trans h.isDynamic, hg, (hm'.trans h.binaryMode).trans hm.symm⟩⟩
  · have hdo : ∃ k ≤ 31, s.length.toNat = 2 ^ k := h.length ▸ o.doubled
    have hle := (growLength_spec hgr hdo).2.1
    obtain ⟨⟨s', hfa, hb⟩, hgw⟩ := h.holds.grow h.isDynamic hgr hle
    cases allocation with
    | none =>
      exact ⟨s', put_no_room h.isGood ((makeRoom_of_gt hgt).trans hfa), .inr ⟨rfl, hb⟩⟩
    | some memory =>
      obtain ⟨data, hr, hh1⟩ := hgw memory
      obtain ⟨s', hrun, hh, hl, hd, hg, hm'⟩ :=
        Holds.put hco h.isGood ((makeRoom_of_gt hgt).trans hr) rfl hh1 hf
      exact ⟨s', hrun, .inl ⟨hw ▸ hh, hl, hd.trans h.isDynamic, hg,
        (hm'.trans h.binaryMode).trans hm.symm⟩⟩

lemma Represents.outputChar (ch : UInt8)
    (ho : o.outputChar ch = some ((), o')) (allocation : Allocation) :
    ∃ s', RawOStream.outputChar allocation ch s = some ((), s') ∧ Follows allocation s' o' := by
  rw [OStream.outputChar, get_bind_run] at ho
  obtain ⟨_, o1, hb, hp⟩ := bind_eq_some.mp ho
  obtain ⟨s1, hrun, hf⟩ := h.put (copies_string [32]) hb allocation
  have hs : RawOStream.outputChar allocation ch s = _ := get_bind_run s _
  rw [if_pos h.isGood, outputString, bind_run hrun, get_bind_run] at hs
  rcases hf with h1 | ⟨hn, hba⟩
  · -- the blank is replaced
    obtain ⟨hw, hl, hm⟩ := poke_cases hp
    obtain ⟨hw1, -⟩ := outputBinary_cases hb
    obtain ⟨rest, hd, hlen⟩ := h1.holds.data
    rw [hw1] at hd hlen hw
    have hst : store (o.written ++ [32] ++ 0 :: rest) s.bytesWritten.toNat [ch] =
        some (o.written ++ [ch] ++ 0 :: rest) := by
      rw [h.holds.bytesWritten, append_assoc, store_append (by simp)]
      simp
    have hw' : o'.written = o.written ++ [ch] := by
      rw [hw, take_left, drop_of_length_le (by simp), append_nil]
    refine ⟨{ s1 with data := some (o.written ++ [ch] ++ 0 :: rest) }, ?_, .inl ⟨?_, ?_,
      h1.isDynamic, h1.isGood, h1.binaryMode.trans hm.symm⟩⟩
    · rw [hs, if_pos h1.isGood, copyTo_run hd hst]
    · rw [hw']
      refine ⟨⟨rest, rfl, by simpa using hlen⟩, ?_⟩
      rw [h1.holds.bytesWritten, hw1]
      simp
    · exact h1.length.trans hl.symm
  · refine ⟨s1, ?_, .inr ⟨hn, hba⟩⟩
    rw [hs, if_neg (by simp [hba])]
    rfl

lemma Represents.outputNumber (word : UInt32) (text : Bytes)
    (ho : o.outputBinary (if o.binaryMode then htonl word else text) = some ((), o'))
    (allocation : Allocation) :
    ∃ s', outputNumber allocation word text s = some ((), s') ∧ Follows allocation s' o' := by
  have hs : RawOStream.outputNumber allocation word text s = _ := get_bind_run s _
  rw [if_pos h.isGood, h.binaryMode] at hs
  rw [hs]
  cases hm : o.binaryMode with
  | true =>
    rw [hm] at ho
    exact h.put (copies_binary _) ho allocation
  | false =>
    rw [hm] at ho
    exact h.put (copies_string _) ho allocation

/-- **Every write** to the memory does what it does to the list of bytes. -/
theorem Represents.write (w : Write) (ho : o.write w = some ((), o')) (allocation : Allocation) :
    ∃ s', write allocation w s = some ((), s') ∧ Follows allocation s' o' := by
  cases w with
  | string text =>
    cases text with
    | none =>
      cases ho
      exact ⟨s, rfl, .inl h⟩
    | some text => exact h.put (copies_string (chars text)) ho allocation
  | char ch => exact h.outputChar ch ho allocation
  | int | uint32 =>
    refine h.outputNumber _ _ ?_ allocation
    rw [apply_ite OStream.outputBinary]
    exact (get_bind_run o _).symm.trans ho
  | append bytes _ => exact h.put (copies_binary bytes) ho allocation

end

end Simulation

/-! ## Streams that are bad -/

section Bad

variable {s : RawOStream}

/-- **A bad stream ignores writes.** -/
theorem write_bad (h : s.isGood = false) (allocation : Allocation) (w : Write) :
    write allocation w s = some ((), s) := by
  have hs : ∀ x : RawWriteM Unit, (if s.isGood then x else pure ()) s = some ((), s) := by
    intro x
    rw [if_neg (by simp [h])]
    rfl
  cases w with
  | string text =>
    cases text with
    | none => rfl
    | some text => rw [write, outputString, put_bad h]
  | char | int | uint32 => exact (get_bind_run s _).trans (hs _)
  | append bytes _ => rw [write, append, outputBinary, put_bad h]

lemma runAll_bad (h : s.isGood = false) (ops : List StreamOp) :
    ∃ s', runAll ops s = some ((), s') ∧ s'.isGood = false := by
  induction ops generalizing s with
  | nil => exact ⟨s, rfl, h⟩
  | cons op ops ih =>
    cases op with
    | write allocation w =>
      obtain ⟨s', hrun, hb⟩ := ih h
      exact ⟨s', (bind_run (write_bad h allocation w) _).trans hrun, hb⟩
    | binary flag =>
      obtain ⟨s', hrun, hb⟩ := ih (s := { s with binaryMode := flag }) h
      exact ⟨s', (bind_run rfl _).trans hrun, hb⟩

end Bad

/-! ## Streams that grow -/

section Growing

variable {s : RawOStream} {o o' : OStream}

lemma Represents.runAll {ops : List StreamOp} (h : s.Represents o)
    (ho : o.runAll ops = some ((), o')) :
    ∃ s', runAll ops s = some ((), s') ∧
      (s'.Represents o' ∨ (s'.isGood = false ∧ ∃ w, StreamOp.write none w ∈ ops)) := by
  induction ops generalizing s o with
  | nil =>
    cases ho
    exact ⟨s, rfl, .inl h⟩
  | cons op ops ih =>
    obtain ⟨_, o1, hop, hops⟩ := bind_eq_some.mp ho
    cases op with
    | write allocation w =>
      obtain ⟨s1, hr1, h1 | ⟨rfl, hb⟩⟩ := h.write w hop allocation
      · obtain ⟨s', hrun, hs'⟩ := ih h1 hops
        refine ⟨s', (bind_run hr1 _).trans hrun, hs'.imp_right ?_⟩
        rintro ⟨hb, w', hmem⟩
        exact ⟨hb, w', .tail _ hmem⟩
      · obtain ⟨s', hrun, hb'⟩ := runAll_bad hb ops
        exact ⟨s', (bind_run hr1 _).trans hrun, .inr ⟨hb', w, .head _⟩⟩
    | binary flag =>
      obtain rfl := modify_eq_some.mp hop
      have h1 : Represents { s with binaryMode := flag } { o with binaryMode := flag } :=
        ⟨⟨h.holds.data, h.holds.bytesWritten⟩, h.length, h.isDynamic, h.isGood, rfl⟩
      obtain ⟨s', hrun, hs'⟩ := ih h1 hops
      refine ⟨s', (bind_run rfl _).trans hrun, hs'.imp_right ?_⟩
      rintro ⟨hb, w', hmem⟩
      exact ⟨hb, w', .tail _ hmem⟩

lemma represents_new (memory : ℕ → UInt8) (status : Errors) :
    (RawOStream.new (some memory) status).Represents OStream.new :=
  ⟨⟨⟨(List.range 63).map memory, rfl, by simp [OStream.new, new]⟩, rfl⟩, rfl, rfl, rfl, rfl⟩

/-- **A dynamic stream grows**: whatever is written to a new stream, up to `2 ^ 31` bytes, the
operators return; and as long as there is memory, which is what makes a stream bad, the buffer holds
the bytes written with a NUL behind them, and is large enough. -/
def GrowthRight (first : Allocation) (status : Errors) (ops : List StreamOp) : Prop :=
  (bytesOf false ops).length < 2 ^ 31 →
    ∃ s, runAll ops (new first status) = some ((), s) ∧
      (s.isGood = true → s.Holds (bytesOf false ops) ∧
        s.bytesWritten.toNat + 1 ≤ s.length.toNat) ∧
      (s.isGood = false → first = none ∨ ∃ w, StreamOp.write none w ∈ ops)

lemma growthRight (first : Allocation) (status : Errors) (ops : List StreamOp) :
    GrowthRight first status ops := by
  intro hlen
  cases first with
  | none =>
    obtain ⟨s, hrun, hb⟩ := runAll_bad (s := new none status) rfl ops
    exact ⟨s, hrun, fun hg => (nomatch hg.symm.trans hb), fun _ => .inl rfl⟩
  | some memory =>
    obtain ⟨m', he⟩ := exists_emits_runAll false ops
    obtain ⟨o, ho⟩ := he.total OStream.new rfl (by simpa [OStream.new] using hlen)
    obtain ⟨hw, -⟩ := he.sound OStream.new o rfl ho
    obtain ⟨s, hrun, hs⟩ := (represents_new memory status).runAll ho
    refine ⟨s, hrun, fun hg => ?_, fun hb => ?_⟩
    · rcases hs with h | ⟨hb, -⟩
      · have hh : s.Holds (bytesOf false ops) := by
          rw [show bytesOf false ops = o.written by rw [hw]; rfl]
          exact h.holds
        obtain ⟨rest, -, hr⟩ := hh.data
        refine ⟨hh, ?_⟩
        rw [hh.bytesWritten]
        omega
      · exact nomatch hg.symm.trans hb
    · rcases hs with h | ⟨-, hn⟩
      · exact nomatch h.isGood.symm.trans hb
      · exact .inr hn

end Growing

/-! ## Buffers that do not grow -/

section Fixed

variable {s s' : RawOStream} {allocation : Allocation} {w : Write}

/-- The bytes of a write and the NUL behind them fit into the buffer.  `NULL` is not written. -/
def Fits (s : RawOStream) : Write → Prop
  | .string none => True
  | w => s.bytesWritten.toNat + (w.bytes s.binaryMode).length + 1 ≤ s.length.toNat

/-- What the test before a write compares with the length. -/
def needed (s : RawOStream) (w : Write) : ℕ :=
  (s.bytesWritten.toNat + (w.bytes s.binaryMode).length + 1) % 2 ^ 32

lemma needed_eq (n : ℕ) :
    (s.bytesWritten + ofNat n + 1).toNat = (s.bytesWritten.toNat + n + 1) % 2 ^ 32 := by
  have h1 : (1 : UInt32).toNat = 1 := rfl
  rw [UInt32.toNat_add, UInt32.toNat_add, toNat_ofNat', h1]
  omega

lemma gt_length_iff (n : ℕ) :
    s.bytesWritten + ofNat n + 1 > s.length ↔
      s.length.toNat < (s.bytesWritten.toNat + n + 1) % 2 ^ 32 := by
  rw [gt_iff_lt, lt_iff_toNat_lt, needed_eq]

lemma outputNumber_eq (allocation : Allocation) (hg : s.isGood = true) (word : UInt32)
    (text : Bytes) :
    ∃ copy, outputNumber allocation word text s =
      put allocation (ofNat (if s.binaryMode then htonl word else text).length) copy s := by
  have hs : outputNumber allocation word text s = _ := get_bind_run s _
  rw [hs, if_pos hg]
  cases s.binaryMode with
  | true => exact ⟨copyBinary (htonl word), rfl⟩
  | false => exact ⟨copyString text, rfl⟩

/-- **Every write** is one test and one copy; a character is put in its place afterwards. -/
theorem write_eq (allocation : Allocation) (hg : s.isGood = true) (hw : w ≠ .string none) :
    ∃ copy, write allocation w s = put allocation (ofNat (w.bytes s.binaryMode).length) copy s ∨
      ∃ ch, write allocation w s =
        (put allocation (ofNat (w.bytes s.binaryMode).length) copy >>= fun _ => do
          let s' ← get
          if s'.isGood then copyTo s.bytesWritten [ch] : RawWriteM Unit) s := by
  cases w with
  | string text =>
    cases text with
    | none => exact absurd rfl hw
    | some text => exact ⟨copyString (chars text), .inl rfl⟩
  | char ch =>
    refine ⟨copyString [32], .inr ⟨ch, ?_⟩⟩
    refine (get_bind_run s _).trans ?_
    rw [if_pos hg]
    rfl
  | int integer =>
    obtain ⟨copy, hc⟩ := outputNumber_eq allocation hg integer.toUInt32 (printInt integer)
    exact ⟨copy, .inl hc⟩
  | uint32 uinteger =>
    obtain ⟨copy, hc⟩ := outputNumber_eq allocation hg uinteger (printUInt32 uinteger)
    exact ⟨copy, .inl hc⟩
  | append bytes _ => exact ⟨copyBinary bytes, .inl rfl⟩

lemma write_refused (hg : s.isGood = true) (hf : s.isDynamic = false)
    (hw : w ≠ .string none) (hgt : s.length.toNat < s.needed w) :
    write allocation w s = some ((), s.refused) := by
  have hp : ∀ copy, put allocation (ofNat (w.bytes s.binaryMode).length) copy s =
      some ((), s.refused) := by
    refine fun copy => put_no_room hg ((makeRoom_of_gt ((gt_length_iff _).mpr hgt)).trans ?_)
    refine (get_bind_run s _).trans ?_
    rw [if_pos hf]
    rfl
  obtain ⟨copy, hwr | ⟨ch, hwr⟩⟩ := write_eq allocation hg hw
  · rw [hwr, hp]
  · rw [hwr, bind_run (hp copy), get_bind_run]
    rfl

lemma write_not_refused (hg : s.isGood = true) (hw : w ≠ .string none)
    (hle : ¬ s.length.toNat < s.needed w) (hrun : write allocation w s = some ((), s')) :
    s'.isGood = true := by
  have hp : ∀ copy s1, put allocation (ofNat (w.bytes s.binaryMode).length) copy s =
      some ((), s1) → s1.isGood = true :=
    fun copy s1 => isGood_of_put hg fun hgt => hle ((gt_length_iff _).mp hgt)
  obtain ⟨copy, hwr | ⟨ch, hwr⟩⟩ := write_eq allocation hg hw
  · exact hp copy s' (hwr.symm.trans hrun)
  · rw [hwr] at hrun
    obtain ⟨_, s1, h1, hr⟩ := bind_eq_some.mp hrun
    have hg1 := hp copy s1 h1
    rw [get_bind_run, if_pos hg1] at hr
    simp only [copyTo, run_iff] at hr
    obtain ⟨_, -, rfl⟩ := hr
    exact hg1

/-- **A buffer that does not grow**: a write that does not fit changes nothing but the flag and the
error, and a stream that is bad ignores all writes. -/
def RefusalRight (s : RawOStream) (allocation : Allocation) (w : Write) : Prop :=
  (s.isGood = true → ¬ s.Fits w → write allocation w s = some ((), s.refused)) ∧
    (s.isGood = false → ∀ ws : List (Allocation × Write),
      runAll (ws.map fun w => .write w.1 w.2) s = some ((), s))

lemma runAll_writes_bad (h : s.isGood = false) (ws : List (Allocation × Write)) :
    runAll (ws.map fun w => .write w.1 w.2) s = some ((), s) := by
  induction ws with
  | nil => rfl
  | cons w ws ih => exact (bind_run (write_bad h w.1 w.2) _).trans ih

/-- **Every sequence of writes to a dynamic stream, and every write to a fixed buffer**: the first
holds what was written, and the second refuses what does not fit, exactly if the sum of the bytes
written, the bytes to write and the NUL is too large also as a 32-bit word. -/
theorem streams_right_iff (first : Allocation) (status : Errors) (ops : List StreamOp)
    (s : RawOStream) (hfixed : s.isDynamic = false) (allocation : Allocation) (w : Write) :
    (GrowthRight first status ops ∧ s.RefusalRight allocation w) ↔
      (s.isGood = true → ¬ s.Fits w → s.length.toNat < s.needed w) := by
  have hn : ∀ {w}, ¬ s.Fits w → w ≠ .string none := by
    rintro w hf rfl
    exact hf trivial
  constructor
  · rintro ⟨-, hr, -⟩ hg hf
    by_contra hle
    have hg' := write_not_refused hg (hn hf) hle (hr hg hf)
    cases hg'
  · intro hw
    refine ⟨growthRight first status ops, fun hg hf => ?_, fun hb => runAll_writes_bad hb⟩
    exact write_refused hg hfixed (hn hf) (hw hg hf)

def twoBytes : RawOStream := ⟨some [0, 7], 2, 0, false, true, false, .success⟩

/-- A string of three bytes does not fit into two. -/
theorem streams_right_refused :
    ofBuffer [5, 7] .success = some twoBytes ∧ ¬ twoBytes.Fits (.string (some [97, 98, 99])) ∧
      GrowthRight (some fun _ => 1) .success [.write none (.char 65), .write none (.int 7)] ∧
      twoBytes.RefusalRight none (.string (some [97, 98, 99])) := by
  have hr := (streams_right_iff (some fun _ => 1) .success
    [.write none (.char 65), .write none (.int 7)] twoBytes rfl none
    (.string (some [97, 98, 99]))).mpr fun _ _ => by decide
  exact ⟨rfl, by unfold Fits; decide, hr⟩

lemma append_faults (hlt : bytes.length < 2 ^ 32) (hlen : bytes.length = 2 ^ 32 - 1) :
    ¬ twoBytes.Fits (.append bytes hlt) ∧ write none (.append bytes hlt) twoBytes = none := by
  constructor
  · change ¬ 0 + bytes.length + 1 ≤ 2
    rw [hlen]
    decide
  · have hn : ¬ twoBytes.bytesWritten + ofNat bytes.length + 1 > twoBytes.length := by
      rw [hlen]
      decide
    have hc : copyTo twoBytes.bytesWritten bytes twoBytes = none := by
      have hs : store [0, 7] 0 bytes = none := by
        rw [store, if_neg (by rw [hlen]; decide)]
      refine (get_bind_run twoBytes _).trans (bind_none ?_ _)
      simp only [twoBytes, Option.bind_some, UInt32.toNat_zero, hs]
      rfl
    rw [write, append, outputBinary, put_good rfl, bind_run (makeRoom_of_le hn), if_pos rfl]
    exact bind_none (bind_none hc _) _

lemma length_replicate_lt : (replicate (2 ^ 32 - 1) (65 : UInt8)).length < 2 ^ 32 := by
  rw [length_replicate]
  decide

/-- **A write that does not fit and is not refused**: `Append` of `2 ^ 32 - 1` bytes to a buffer of
two goes on to copy them. -/
theorem append_not_refused : ofBuffer [5, 7] .success = some twoBytes ∧
    ¬ twoBytes.Fits (.append (List.replicate (2 ^ 32 - 1) 65) length_replicate_lt) ∧
    write none (.append (List.replicate (2 ^ 32 - 1) 65) length_replicate_lt) twoBytes = none :=
  ⟨rfl, append_faults length_replicate_lt length_replicate⟩

end Fixed

end RawOStream

end Glomop
