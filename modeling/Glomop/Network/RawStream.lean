import Glomop.Network.IStream

/-!
# `IStream` at the level of memory

The operators of `Glomop.Network.IStream` one level lower: the stream is a pointer into memory, a
byte is read by dereferencing it wherever it points, and every position that is read is recorded.
Positions are relative to the first byte of the packet and wrap around; the cursor of an empty
packet, whose `data` is `NULL`, is `NULL` too, and dereferencing it faults.  The array that a string
is extracted into is taken to be large enough.  Memory enters an operator only through the bytes it
reads (`RawStream.Local`).
Source: `packet.h`, `packet.cc`.
-/

namespace Glomop

open Lib Prog UInt32
open List hiding get modify set

/-- The contents of memory, from the first byte of the packet on. -/
abbrev Memory := UInt32 → UInt8

/-- A stream as a pointer into memory.  `class Stream`, `class IStream`. -/
@[ext] structure RawStream where
  length : UInt32
  /-- `current - data`. -/
  position : UInt32
  delimiter : UInt8
  stringWidth : UInt32
  isGood : Bool
  binaryMode : Bool
  /-- The thread's `Error::status`. -/
  status : Errors
  touched : List UInt32
deriving DecidableEq

variable {α : Type} {memory : Memory} {room : ℕ} {s s' : RawStream}

namespace RawStream

/-- `IStream::IStream`. -/
def ofBuffer (length : UInt32) (status : Errors) : RawStream where
  length := length
  position := 0
  delimiter := 0
  stringWidth := length
  isGood := true
  binaryMode := false
  status := status
  touched := []

def isDone (s : RawStream) : Bool := !decide (s.position < s.length)

/-- `*current`. -/
def deref (memory : Memory) : Prog RawStream UInt8 := do
  let s ← get
  if s.length = 0 then fault
  else
    set { s with touched := s.position :: s.touched }
    return memory s.position

/-- The positions that `memcpy(.., current, count)` reads. -/
def span (position count : UInt32) : List UInt32 :=
  (List.range count.toNat).map fun i => position + UInt32.ofNat i

/-- `memcpy(.., current, count)`. -/
def memcpy (memory : Memory) (count : UInt32) : Prog RawStream Bytes := do
  let s ← get
  set { s with touched := span s.position count ++ s.touched }
  return (span s.position count).map memory

/-- `packet.cc` macro `StreamReturn`. -/
def streamReturn (errorCode : Errors) : Prog RawStream Unit :=
  modify fun s =>
    if errorCode = .success then { s with isGood := true }
    else { s with isGood := false, status := errorCode }

/-- The copying loop of `operator >> (char*)`, with room for so many more characters. -/
def copyLoop (memory : Memory) (room : ℕ) : Prog RawStream Bytes := do
  let s ← get
  if s.isDone then return []
  else
    let c ← deref memory
    if c = s.delimiter then return []
    else
      match room with
      | 0 => return []
      | room + 1 =>
        modify fun s => { s with position := s.position + 1 }
        let cs ← copyLoop memory room
        return c :: cs

/-- The end of `operator >> (char*)`: `c` is the byte the copying loop stopped at. -/
def endString (original : UInt32) (c : UInt8) : Prog RawStream Unit := do
  let s ← get
  if c = s.delimiter then streamReturn .success
  else
    set { s with position := original }
    if s.isDone then streamReturn .errFormattingError else streamReturn .errBufferOverflow

/-- The characters written to the array; `none` if it is left alone.
`IStream::operator >> (char*)`. -/
def inputString (memory : Memory) : Prog RawStream (Option Bytes) := do
  let s ← get
  if s.isGood then
    let chars ← copyLoop memory (s.stringWidth - 1).toNat
    let c ← deref memory
    endString s.position c
    return some chars
  else return none

def inputBinary (memory : Memory) (numberOfBytes : UInt32) : Prog RawStream (Option Bytes) := do
  let s ← get
  if s.isGood then
    if s.position + numberOfBytes > s.length then
      streamReturn .errFormattingError
      return none
    else
      let bytes ← memcpy memory numberOfBytes
      modify fun s => { s with position := s.position + numberOfBytes }
      streamReturn .success
      return some bytes
  else return none

def extract (memory : Memory) (extractLength : UInt32) : Prog RawStream (Option Bytes) := do
  let s ← get
  if s.isGood then
    if s.position + extractLength > s.length then
      streamReturn .errFormattingError
      return none
    else
      let bytes ← memcpy memory extractLength
      modify fun s => { s with position := s.position + extractLength }
      return some bytes
  else return none

/-- Extract a number, as `IStream.inputNumber` does; `none` if the variable is left alone.
`IStream::operator >> (int&)`, `IStream::operator >> (UINT32&)`, `IStream::operator >> (INT32&)`. -/
def inputNumber {α : Type} (ofWord : UInt32 → α) (scan : Bytes → Option α) (memory : Memory) :
    Prog RawStream (Option α) := do
  let s ← get
  if s.isGood then
    if s.binaryMode then
      let bytes ← inputBinary memory 4
      return bytes.map fun bytes => ofWord (IStream.ntohl bytes)
    else
      modify fun s => { s with stringWidth := UInt32.ofNat IStream.numberWidth }
      let text ← inputString memory
      modify fun s' => { s' with stringWidth := s.stringWidth }
      let s' ← get
      if s'.isGood then
        match scan (cString (text.getD [])) with
        | none =>
          streamReturn .errFormattingError
          return none
        | some v => return some v
      else return none
  else return none

/-! ## Sequences of operations -/

inductive Op
  | string
  | int
  | uint32
  | int32
  | extract (extractLength : UInt32)
  | skip (howMany : UInt32)
  | delimit (ch : UInt8)
  | setW (width : UInt32)
  | binary (flag : Bool)
deriving DecidableEq

/-- What an operation stores in the variable it is given, if anything. -/
inductive Value
  | bytes (written : Option Bytes)
  | int (written : Option Int32)
  | uint32 (written : Option UInt32)
  | nothing
deriving DecidableEq

/-- Carry out one operation.  The manipulators work on a stream that is no longer good as well.
`packet.cc` and `packet.h`, the operators of `class IStream`; `Skip_`, `Delimit_`, `SetW_`
and `Binary_` are reached through the macros of the same names, `Skip_` through `Skip` and
`SkipMany`. -/
def exec (memory : Memory) : Op → Prog RawStream Value
  | .string => do return .bytes (← inputString memory)
  | .int => do return .int (← inputNumber UInt32.toInt32 scanInt memory)
  | .uint32 => do return .uint32 (← inputNumber id scanUInt32 memory)
  -- "%ld" into a 32-bit long converts as "%d" does
  | .int32 => do return .int (← inputNumber UInt32.toInt32 scanInt memory)
  | .extract extractLength => do return .bytes (← extract memory extractLength)
  | .skip howMany => do
    modify fun s => if s.isDone then s else { s with position := s.position + howMany }
    return .nothing
  | .delimit ch => do
    modify fun s => { s with delimiter := ch }
    return .nothing
  | .setW width => do
    modify fun s => { s with stringWidth := width }
    return .nothing
  | .binary flag => do
    modify fun s => { s with binaryMode := flag }
    return .nothing

def execAll (memory : Memory) : List Op → Prog RawStream (List Value)
  | [] => return []
  | op :: ops => do
    let value ← exec memory op
    let values ← execAll memory ops
    return value :: values

/-! ## What a result depends on

A computation is local if memory enters it only through the positions it records: two memories that
agree on those give the same result. -/

structure Grows (s s' : RawStream) : Prop where
  length_eq : s'.length = s.length
  touched_subset : s.touched ⊆ s'.touched

instance : IsPreorder RawStream Grows where
  refl _ := ⟨rfl, List.Subset.refl _⟩
  trans _ _ _ h₁ h₂ :=
    ⟨h₂.length_eq.trans h₁.length_eq, List.Subset.trans h₁.touched_subset h₂.touched_subset⟩

def InPacket (s : RawStream) : Prop := ∀ i ∈ s.touched, i < s.length

lemma InPacket.of_grows (h : s'.InPacket) (hg : Grows s s') : s.InPacket := by
  intro i hi
  rw [← hg.length_eq]
  exact h i (hg.touched_subset hi)

def SamePacket (length : UInt32) (memory memory' : Memory) : Prop :=
  ∀ i < length, memory' i = memory i

structure Local {α : Type} (x : Memory → Prog RawStream α) : Prop where
  grows : ∀ memory, Prog.Within Grows (x memory)
  agrees : ∀ memory memory' s a s', x memory s = some (a, s') → s'.InPacket →
    SamePacket s'.length memory memory' → x memory' s = some (a, s')

lemma Local.const {x : Prog RawStream α} (h : Prog.Within Grows x) : Local fun _ => x :=
  ⟨fun _ => h, fun _ _ _ _ _ hx _ _ => hx⟩

lemma Local.pure (a : α) : Local fun _ => (Pure.pure a : Prog RawStream α) := .const (.pure a)

lemma Local.bind {β : Type} {x : Memory → Prog RawStream α} {f : α → Memory → Prog RawStream β}
    (hx : Local x) (hf : ∀ a, Local (f a)) :
    Local fun memory => x memory >>= fun a => f a memory where
  grows memory := .bind (hx.grows memory) fun a => (hf a).grows memory
  agrees := by
    intro memory memory' s b s' h hp hs
    rw [bind_eq_some] at h ⊢
    obtain ⟨a, s1, h1, h2⟩ := h
    have hg := (hf a).grows memory h2
    have hs1 : SamePacket s1.length memory memory' := hg.length_eq ▸ hs
    exact ⟨a, s1, hx.agrees _ _ _ _ _ h1 (hp.of_grows hg) hs1, (hf a).agrees _ _ _ _ _ h2 hp hs⟩

lemma Local.get_bind {β : Type} {f : RawStream → Memory → Prog RawStream β}
    (hf : ∀ s, Local (f s)) : Local fun memory => get >>= fun s => f s memory :=
  .bind (.const .get) hf

lemma Local.modify {f : RawStream → RawStream} (h : ∀ s, Grows s (f s)) :
    Local fun _ => (modify f : Prog RawStream PUnit) :=
  .const (.modify h)

lemma Local.ite {c : Prop} [Decidable c] {x y : Memory → Prog RawStream α} (hx : c → Local x)
    (hy : ¬ c → Local y) : Local fun memory => if c then x memory else y memory := by
  by_cases h : c
  · simp only [if_pos h]
    exact hx h
  · simp only [if_neg h]
    exact hy h

lemma local_deref : Local deref where
  grows memory := by
    intro s a s' h
    simp only [deref, ite_eq_some, fault_eq_some, and_false, false_or, run_iff] at h
    obtain ⟨_, _, _, rfl, _, rfl⟩ := h
    exact ⟨rfl, subset_cons_self _ _⟩
  agrees := by
    intro memory memory' s a s' h hp hs
    simp only [deref, bind_eq_some, get_eq_some, ite_eq_some, fault_eq_some,
      and_false, false_or, set_eq_some, pure_eq_some] at h ⊢
    obtain ⟨_, s, ⟨rfl, rfl⟩, hne, u, _, rfl, rfl, rfl⟩ := h
    have hr := hs s.position (hp s.position (.head _))
    exact ⟨s, s, ⟨rfl, rfl⟩, hne, u, _, rfl, hr.symm, rfl⟩

lemma local_memcpy (count : UInt32) : Local fun memory => memcpy memory count where
  grows memory := by
    intro s a s' h
    simp only [memcpy, run_iff] at h
    obtain ⟨_, rfl⟩ := h
    exact ⟨rfl, subset_append_right _ _⟩
  agrees := by
    intro memory memory' s a s' h hp hs
    simp only [memcpy, bind_eq_some, get_eq_some, set_eq_some, pure_eq_some] at h ⊢
    obtain ⟨_, s, ⟨rfl, rfl⟩, u, _, rfl, rfl, rfl⟩ := h
    refine ⟨s, s, ⟨rfl, rfl⟩, u, _, rfl, ?_, rfl⟩
    refine map_congr_left fun i hi => ?_
    exact (hs i (hp i (mem_append_left _ hi))).symm

lemma local_streamReturn (errorCode : Errors) : Local fun _ => streamReturn errorCode := by
  refine .modify fun s => ?_
  split_ifs
  all_goals exact ⟨rfl, Subset.refl _⟩

lemma local_copyLoop (room : ℕ) : Local fun memory => copyLoop memory room := by
  induction room with
  | zero =>
    unfold copyLoop
    refine .get_bind fun s => .ite (fun _ => .pure []) fun _ => ?_
    refine .bind local_deref fun c => .ite (fun _ => .pure []) fun _ => .pure []
  | succ room ih =>
    unfold copyLoop
    refine .get_bind fun s => .ite (fun _ => .pure []) fun _ => ?_
    refine .bind local_deref fun c => .ite (fun _ => .pure []) fun _ => ?_
    exact .bind (.modify fun _ => ⟨rfl, Subset.refl _⟩) fun _ => .bind ih fun cs => .pure _

lemma local_endString (original : UInt32) (c : UInt8) : Local fun _ => endString original c := by
  refine .const ?_
  intro s u s' h
  simp only [endString, streamReturn, ite_eq_some, run_iff] at h
  rcases h with ⟨_, rfl⟩ | ⟨_, ⟨_, rfl⟩ | ⟨_, rfl⟩⟩
  all_goals exact ⟨rfl, Subset.refl _⟩

lemma local_inputString : Local inputString := by
  refine .get_bind fun s => .ite (fun _ => ?_) fun _ => .pure none
  refine .bind (local_copyLoop _) fun chars => .bind local_deref fun c => ?_
  exact .bind (local_endString _ _) fun _ => .pure (some chars)

lemma local_inputBinary (numberOfBytes : UInt32) :
    Local fun memory => inputBinary memory numberOfBytes := by
  refine .get_bind fun s => .ite (fun _ => ?_) fun _ => .pure none
  refine .ite (fun _ => .bind (local_streamReturn _) fun _ => .pure none) fun _ => ?_
  refine .bind (local_memcpy _) fun bytes => ?_
  refine .bind (.modify fun _ => ⟨rfl, Subset.refl _⟩) fun _ => ?_
  exact .bind (local_streamReturn _) fun _ => .pure (some bytes)

lemma local_extract (extractLength : UInt32) :
    Local fun memory => extract memory extractLength := by
  refine .get_bind fun s => .ite (fun _ => ?_) fun _ => .pure none
  refine .ite (fun _ => .bind (local_streamReturn _) fun _ => .pure none) fun _ => ?_
  refine .bind (local_memcpy _) fun bytes => ?_
  exact .bind (.modify fun _ => ⟨rfl, Subset.refl _⟩) fun _ => .pure (some bytes)

lemma local_inputNumber (ofWord : UInt32 → α) (scan : Bytes → Option α) :
    Local (inputNumber ofWord scan) := by
  refine .get_bind fun s => .ite (fun _ => ?_) fun _ => .pure none
  refine .ite (fun _ => .bind (local_inputBinary 4) fun bytes => .pure _) fun _ => ?_
  refine .bind (.modify fun _ => ⟨rfl, Subset.refl _⟩) fun _ => ?_
  refine .bind local_inputString fun text => ?_
  refine .bind (.modify fun _ => ⟨rfl, Subset.refl _⟩) fun _ => ?_
  refine .get_bind fun s' => .ite (fun _ => ?_) fun _ => .pure none
  cases scan (cString (text.getD [])) with
  | none => exact .bind (local_streamReturn _) fun _ => .pure none
  | some v => exact .pure (some v)

lemma local_exec (op : Op) : Local fun memory => exec memory op := by
  cases op with
  | string => exact .bind local_inputString fun _ => .pure _
  | int | uint32 | int32 => exact .bind (local_inputNumber _ _) fun _ => .pure _
  | extract n => exact .bind (local_extract n) fun _ => .pure _
  | skip n =>
    refine .bind (.modify fun s => ?_) fun _ => .pure _
    split_ifs
    · exact refl_of Grows s
    · exact ⟨rfl, Subset.refl _⟩
  | delimit | setW | binary => exact .bind (.modify fun _ => ⟨rfl, Subset.refl _⟩) fun _ => .pure _

lemma local_execAll (ops : List Op) : Local fun memory => execAll memory ops := by
  induction ops with
  | nil => exact .pure []
  | cons op ops ih => exact .bind (local_exec op) fun value => .bind ih fun values => .pure _

/-! ## What an operation reads -/

/-- The byte `i` positions behind the cursor. -/
def byteAt (memory : Memory) (s : RawStream) (i : ℕ) : UInt8 :=
  memory (s.position + UInt32.ofNat i)

structure Copied (memory : Memory) (room : ℕ) (s : RawStream) (chars : Bytes) (s' : RawStream) :
    Prop where
  moved : ∃ extra, (∀ i ∈ extra, i < s.length) ∧
    s' = { s with
      position := s.position + UInt32.ofNat chars.length, touched := extra ++ s.touched }
  inside : ∀ j < chars.length,
    s.position.toNat + j < s.length.toNat ∧ s.byteAt memory j ≠ s.delimiter
  le_room : chars.length ≤ room
  stopped : s.length.toNat ≤ s.position.toNat + chars.length ∨
    s.byteAt memory chars.length = s.delimiter ∨ chars.length = room

lemma toNat_succ_position (h : s.position < s.length) :
    (s.position + 1).toNat = s.position.toNat + 1 := by
  have hlt := lt_iff_toNat_lt.mp h
  have hlen := s.length.toNat_lt
  have ho : (1 : UInt32).toNat = 1 := rfl
  rw [UInt32.toNat_add, ho]
  omega

lemma add_ofNat_succ (p : UInt32) (j : ℕ) : p + ofNat (j + 1) = p + 1 + ofNat j := by
  rw [ofNat_add, add_comm (ofNat j), ← add_assoc]
  rfl

/-- The stream after `*current` was read. -/
def touch (s : RawStream) : RawStream := { s with touched := s.position :: s.touched }

lemma deref_eq (memory : Memory) (h : s.length ≠ 0) :
    deref memory s = some (memory s.position, s.touch) := by
  simp only [deref, bind_eq_some, get_eq_some, ite_eq_some, set_eq_some, pure_eq_some]
  exact ⟨s, s, ⟨rfl, rfl⟩, .inr ⟨h, (), s.touch, rfl, rfl, rfl⟩⟩

lemma deref_eq_none (memory : Memory) (h : s.length = 0) : deref memory s = none := by
  unfold deref
  rw [get_bind_run, if_pos h]
  rfl

lemma length_ne_zero (h : s.position < s.length) : s.length ≠ 0 := by
  intro hz
  rw [hz] at h
  exact absurd h UInt32.not_lt_zero

lemma Copied.nil (extra : List UInt32) (he : ∀ i ∈ extra, i < s.length)
    (hs : s.length.toNat ≤ s.position.toNat ∨ memory s.position = s.delimiter ∨ room = 0) :
    Copied memory room s [] { s with touched := extra ++ s.touched } where
  moved := ⟨extra, he, by simp⟩
  inside j hj := absurd hj (Nat.not_lt_zero j)
  le_room := Nat.zero_le room
  stopped := by
    rcases hs with h | h | h
    · exact .inl h
    · exact .inr (.inl (by simpa [byteAt] using h))
    · exact .inr (.inr h.symm)

lemma Copied.cons {memory : Memory} {room : ℕ} {s s' : RawStream} {c : UInt8} {cs : Bytes}
    (hin : s.position < s.length) (hc : memory s.position ≠ s.delimiter)
    (h : Copied memory room { s.touch with position := s.position + 1 } cs s') :
    Copied memory (room + 1) s (c :: cs) s' := by
  have hs := toNat_succ_position hin
  have hb (j : ℕ) : byteAt memory { s.touch with position := s.position + 1 } j =
      s.byteAt memory (j + 1) := by
    rw [byteAt, byteAt, add_ofNat_succ]
  obtain ⟨extra, he, hs'⟩ := h.moved
  refine ⟨⟨extra ++ [s.position], ?_, ?_⟩, ?_, Nat.succ_le_succ h.le_room, ?_⟩
  · intro i hi
    rcases mem_append.mp hi with hi | hi
    · exact he i hi
    · rw [mem_singleton.mp hi]
      exact hin
  · rw [hs', length_cons, add_ofNat_succ]
    simp [touch]
  · intro j hj
    cases j with
    | zero => exact ⟨lt_iff_toNat_lt.mp hin, by simpa [byteAt] using hc⟩
    | succ j =>
      obtain ⟨hlt, hne⟩ := h.inside j (Nat.lt_of_succ_lt_succ hj)
      rw [hb] at hne
      rw [hs] at hlt
      exact ⟨by change _ < s.length.toNat at hlt; omega, hne⟩
  · rcases h.stopped with hen | hd | hr
    · rw [hs] at hen
      change s.length.toNat ≤ _ at hen
      exact .inl (by simp only [length_cons]; omega)
    · rw [hb] at hd
      exact .inr (.inl hd)
    · exact .inr (.inr (congrArg (· + 1) hr))

lemma copyLoop_of_done (h : ¬ s.position < s.length) : copyLoop memory room s = some ([], s) := by
  have hd : s.isDone = true := by simp [isDone, h]
  unfold copyLoop
  simp only [bind_eq_some, get_eq_some, ite_eq_some]
  exact ⟨s, s, ⟨rfl, rfl⟩, .inl ⟨hd, rfl⟩⟩

lemma copyLoop_of_stop (hin : s.position < s.length)
    (hs : memory s.position = s.delimiter ∨ room = 0) :
    copyLoop memory room s = some ([], s.touch) := by
  have hd : ¬ s.isDone = true := by simp [isDone, hin]
  have hr := deref_eq memory (length_ne_zero hin)
  unfold copyLoop
  simp only [bind_eq_some, get_eq_some, ite_eq_some]
  refine ⟨s, s, ⟨rfl, rfl⟩, .inr ⟨hd, _, _, hr, ?_⟩⟩
  by_cases hc : memory s.position = s.delimiter
  · exact .inl ⟨hc, rfl⟩
  · obtain rfl := hs.resolve_left hc
    exact .inr ⟨hc, rfl⟩

lemma copyLoop_of_next {cs : Bytes} (hin : s.position < s.length)
    (hc : memory s.position ≠ s.delimiter)
    (h : copyLoop memory room { s.touch with position := s.position + 1 } = some (cs, s')) :
    copyLoop memory (room + 1) s = some (memory s.position :: cs, s') := by
  have hd : ¬ s.isDone = true := by simp [isDone, hin]
  have hr := deref_eq memory (length_ne_zero hin)
  unfold copyLoop
  simp only [bind_eq_some, get_eq_some, ite_eq_some, modify_eq_some]
  exact ⟨s, s, ⟨rfl, rfl⟩, .inr ⟨hd, _, _, hr, .inr ⟨hc, (), _, rfl, cs, s', h, rfl⟩⟩⟩

/-- **The copying loop stops inside the packet or at its end**, and reads nothing outside. -/
theorem copyLoop_returns (memory : Memory) (room : ℕ) (s : RawStream) :
    ∃ chars s', copyLoop memory room s = some (chars, s') ∧ Copied memory room s chars s' := by
  by_cases hin : s.position < s.length
  · by_cases hs : memory s.position = s.delimiter ∨ room = 0
    · refine ⟨[], s.touch, copyLoop_of_stop hin hs, ?_⟩
      exact .nil [s.position] (by simpa using hin) (.inr hs)
    · rw [not_or] at hs
      obtain ⟨hc, hr⟩ := hs
      obtain ⟨room, rfl⟩ := Nat.exists_eq_succ_of_ne_zero hr
      obtain ⟨cs, s', hl, hco⟩ :=
        copyLoop_returns memory room { s.touch with position := s.position + 1 }
      exact ⟨_, s', copyLoop_of_next hin hc hl, .cons hin hc hco⟩
  · refine ⟨[], s, copyLoop_of_done hin, .nil [] (by simp) (.inl ?_)⟩
    simpa [lt_iff_toNat_lt] using hin
termination_by room

def HasDelimiter (memory : Memory) (s : RawStream) : Prop :=
  ∃ i, s.position.toNat + i < s.length.toNat ∧ s.byteAt memory i = s.delimiter

def FindsDelimiter (memory : Memory) (s : RawStream) : Prop :=
  ∃ i < s.stringWidth.toNat, s.position.toNat + i < s.length.toNat ∧
    s.byteAt memory i = s.delimiter

namespace Copied

variable {memory : Memory} {room : ℕ} {s s' : RawStream} {chars : Bytes}

section

variable (h : Copied memory room s chars s')

include h

lemma lt_length_iff :
    s.position.toNat + chars.length < s.length.toNat ↔
      s.HasDelimiter memory ∨ s.position.toNat + room < s.length.toNat := by
  constructor
  · intro hlt
    rcases h.stopped with he | hd | hr
    · omega
    · exact .inl ⟨chars.length, hlt, hd⟩
    · exact .inr (hr ▸ hlt)
  · rintro (⟨i, hi, hd⟩ | hr)
    · have hle : chars.length ≤ i := by
        by_contra hlt
        exact (h.inside i (not_le.mp hlt)).2 hd
      omega
    · have := h.le_room
      omega

lemma delimiter_iff (hlt : s.position.toNat + chars.length < s.length.toNat) :
    s.byteAt memory chars.length = s.delimiter ↔
      ∃ i < room + 1, s.position.toNat + i < s.length.toNat ∧ s.byteAt memory i = s.delimiter := by
  constructor
  · intro hd
    exact ⟨chars.length, Nat.lt_succ_of_le h.le_room, hlt, hd⟩
  · rintro ⟨i, hi, _, hd⟩
    have hle : chars.length ≤ i := by
      by_contra hlt
      exact (h.inside i (not_le.mp hlt)).2 hd
    rcases h.stopped with he | hs | hr
    · omega
    · exact hs
    · rw [show chars.length = i by omega]
      exact hd

lemma toNat_position : s'.position.toNat = s.position.toNat + chars.length := by
  obtain ⟨extra, _, rfl⟩ := h.moved
  have hlen := s.length.toNat_lt
  have hpos := s.position.toNat_lt
  change (s.position + ofNat chars.length).toNat = _
  rw [UInt32.toNat_add, toNat_ofNat']
  rcases Nat.eq_zero_or_pos chars.length with hz | hlt
  · omega
  · have hl := (h.inside (chars.length - 1) (by omega)).1
    omega

lemma length_eq : s'.length = s.length := by
  obtain ⟨_, _, rfl⟩ := h.moved
  rfl

lemma delimiter_eq : s'.delimiter = s.delimiter := by
  obtain ⟨_, _, rfl⟩ := h.moved
  rfl

lemma read_eq : memory s'.position = s.byteAt memory chars.length := by
  obtain ⟨_, _, rfl⟩ := h.moved
  rfl

lemma inPacket (hs : s.InPacket) : s'.InPacket := by
  obtain ⟨extra, he, rfl⟩ := h.moved
  intro i hi
  rcases mem_append.mp hi with hi | hi
  · exact he i hi
  · exact hs i hi

lemma inPacket_touch_iff (hs : s.InPacket) :
    s'.touch.InPacket ↔ s.position.toNat + chars.length < s.length.toNat := by
  rw [← h.toNat_position, ← h.length_eq, ← lt_iff_toNat_lt]
  constructor
  · intro ht
    exact ht s'.position (.head _)
  · intro hlt i hi
    rcases mem_cons.mp hi with rfl | hi
    · exact hlt
    · exact h.inPacket hs i hi

end

end Copied

/-- The stream after `endString`. -/
def ended (s : RawStream) (original : UInt32) (c : UInt8) : RawStream :=
  if c = s.delimiter then { s with isGood := true }
  else
    { s with
      position := original
      isGood := false
      status := if s.isDone then .errFormattingError else .errBufferOverflow }

lemma endString_eq (original : UInt32) (c : UInt8) (s : RawStream) :
    endString original c s = some ((), s.ended original c) := by
  simp only [endString, streamReturn, bind_eq_some, get_eq_some, ite_eq_some,
    set_eq_some, modify_eq_some]
  refine ⟨s, s, ⟨rfl, rfl⟩, ?_⟩
  unfold ended
  by_cases hc : c = s.delimiter
  · exact .inl ⟨hc, by simp [hc]⟩
  · refine .inr ⟨hc, (), _, rfl, ?_⟩
    by_cases hd : s.isDone = true
    · exact .inl ⟨hd, by simp [hc, hd]⟩
    · exact .inr ⟨hd, by simp [hc, hd]⟩

lemma ended_isGood (s : RawStream) (original : UInt32) (c : UInt8) :
    (s.ended original c).isGood = true ↔ c = s.delimiter := by
  unfold ended
  split_ifs with hc
  · exact ⟨fun _ => hc, fun _ => rfl⟩
  · exact ⟨fun h => absurd h (by simp), fun h => absurd h hc⟩

lemma ended_inPacket (s : RawStream) (original : UInt32) (c : UInt8) :
    (s.ended original c).InPacket ↔ s.InPacket := by
  unfold ended
  split_ifs <;> rfl

/-- The computation returns, and has read only bytes of the packet. -/
def Safe {α : Type} (x : Prog RawStream α) (s : RawStream) : Prop :=
  ∃ a s', x s = some (a, s') ∧ s'.InPacket

section InputString

variable {memory : Memory} {s : RawStream}

lemma inputString_cases (memory : Memory) (hg : s.isGood = true) :
    ∃ chars s1, Copied memory (s.stringWidth - 1).toNat s chars s1 ∧
      inputString memory s = if s.length = 0 then none
        else some (some chars, s1.touch.ended s.position (memory s1.position)) := by
  obtain ⟨chars, s1, hl, hc⟩ := copyLoop_returns memory (s.stringWidth - 1).toNat s
  refine ⟨chars, s1, hc, ?_⟩
  unfold inputString
  rw [get_bind_run, if_pos hg, bind_run hl]
  split_ifs with hz
  · exact bind_none (deref_eq_none memory (hc.length_eq.trans hz)) _
  · rw [bind_run (deref_eq memory (by rwa [hc.length_eq])), bind_run (endString_eq _ _ _)]
    rfl

/-- **A string extraction stays inside the packet** exactly if the delimiter is there or the width
runs out before the packet does. -/
theorem safe_inputString_iff (hg : s.isGood = true) (hs : s.InPacket) :
    Safe (inputString memory) s ↔
      s.HasDelimiter memory ∨ s.position.toNat + (s.stringWidth - 1).toNat < s.length.toNat := by
  obtain ⟨chars, s1, hc, hrun⟩ := inputString_cases memory hg
  rw [← hc.lt_length_iff, ← hc.inPacket_touch_iff hs]
  unfold Safe
  rw [hrun]
  split_ifs with hz
  · constructor
    · rintro ⟨_, _, h, _⟩
      cases h
    · intro ht
      have hlt := ht s1.position (.head _)
      exact absurd (hc.length_eq.trans hz) (length_ne_zero hlt)
  · constructor
    · rintro ⟨a, s', h, hp⟩
      cases h
      exact (ended_inPacket _ _ _).mp hp
    · intro ht
      exact ⟨_, _, rfl, (ended_inPacket _ _ _).mpr ht⟩

lemma inputString_isGood_iff {v : Option Bytes} (hg : s.isGood = true) (hs : s.InPacket)
    (h : inputString memory s = some (v, s')) (hs' : s'.InPacket) :
    s'.isGood = true ↔ ∃ i < (s.stringWidth - 1).toNat + 1,
      s.position.toNat + i < s.length.toNat ∧ s.byteAt memory i = s.delimiter := by
  obtain ⟨chars, s1, hc, hrun⟩ := inputString_cases memory hg
  rw [hrun] at h
  split_ifs at h with hz
  cases h
  rw [ended_inPacket, hc.inPacket_touch_iff hs] at hs'
  rw [ended_isGood, hc.read_eq, ← hc.delimiter_iff hs']
  change _ = s1.delimiter ↔ _
  rw [hc.delimiter_eq]

end InputString

end RawStream

end Glomop
