import Glomop.Network.IStream

/-!
# Building a packet: `OStream`

An `OStream` appends to a buffer that doubles when it is too small.  Lengths are 32-bit words, so
that the doubling loop stops at a power of two of at most `2 ^ 31`, or never (`growLength_zero`),
which is a fault here.  A dynamic `OStream` is never bad: `new` does not return `NULL`.
Source: `packet.h`, `packet.cc`.
-/

namespace Glomop

open Lib Prog UInt32
open List hiding get modify set

/-! ## The doubling loop -/

/-- `while (newLength > length) length *= 2`, cut off after a number of rounds.
`OStream::GrowBufferToAtLeast`. -/
def growLength (newLength : UInt32) : ℕ → UInt32 → Option UInt32
  | 0, _ => none
  | rounds + 1, length =>
    if newLength > length then growLength newLength rounds (length * 2) else some length

def growRounds : ℕ := 33

variable {newLength : UInt32} {s : OStream}

lemma growLength_zero (h : 0 < newLength) (rounds : ℕ) : growLength newLength rounds 0 = none := by
  induction rounds with
  | zero => rfl
  | succ n ih =>
    rw [growLength, if_pos h]
    exact ih

private lemma toNat_mul_two {length : UInt32} {k : ℕ} (h : length.toNat = 2 ^ k) :
    (length * 2).toNat = 2 ^ (k + 1) % 2 ^ 32 := by
  rw [UInt32.toNat_mul, h, pow_succ]
  rfl

private lemma toNat_mul_two_of_lt {length : UInt32} {k : ℕ} (h : length.toNat = 2 ^ k)
    (hk : k < 31) : (length * 2).toNat = 2 ^ (k + 1) := by
  rw [toNat_mul_two h]
  exact Nat.mod_eq_of_lt (Nat.pow_lt_pow_right (by norm_num) (by omega))

private lemma length_mul_two_eq_zero {length : UInt32} (h : length.toNat = 2 ^ 31) :
    length * 2 = 0 :=
  UInt32.toNat_inj.mp (by rw [toNat_mul_two h]; rfl)

lemma growLength_spec {l l' : UInt32} {rounds : ℕ} (h : growLength newLength rounds l = some l')
    (hl : ∃ k ≤ 31, l.toNat = 2 ^ k) :
    (∃ k ≤ 31, l'.toNat = 2 ^ k) ∧ l.toNat ≤ l'.toNat ∧ newLength.toNat ≤ l'.toNat := by
  induction rounds generalizing l with
  | zero => simp [growLength] at h
  | succ n ih =>
    obtain ⟨k, hk, hlk⟩ := hl
    rw [growLength] at h
    split_ifs at h with hgt
    · rcases Nat.lt_or_ge k 31 with hk3 | hk3
      · have h2 := toNat_mul_two_of_lt hlk hk3
        obtain ⟨h1, h₂, h3⟩ := ih h ⟨k + 1, by omega, h2⟩
        refine ⟨h1, ?_, h3⟩
        rw [h2, pow_succ] at h₂
        omega
      · -- the length was 2 ^ 31: it wraps to zero and the loop does not return
        obtain rfl : k = 31 := by omega
        rw [length_mul_two_eq_zero hlk,
          growLength_zero (UInt32.lt_of_le_of_lt UInt32.zero_le hgt)] at h
        cases h
    · cases h
      exact ⟨⟨k, hk, hlk⟩, le_rfl, by simpa [le_iff_toNat_le] using hgt⟩

lemma growLength_isSome {l : UInt32} {rounds k : ℕ} (hk : k ≤ 31) (hl : l.toNat = 2 ^ k)
    (hr : 31 < k + rounds) (hn : newLength.toNat ≤ 2 ^ 31) :
    (growLength newLength rounds l).isSome := by
  induction rounds generalizing l k with
  | zero => omega
  | succ n ih =>
    rw [growLength]
    split_ifs with hgt
    · have hk3 : k < 31 := by
        by_contra hc
        obtain rfl : k = 31 := by omega
        rw [gt_iff_lt, lt_iff_toNat_lt, hl] at hgt
        omega
      exact ih (by omega) (toNat_mul_two_of_lt hl hk3) (by omega)
    · rfl

/-! ## The stream -/

/-- A stream building a packet. -/
structure OStream where
  length : UInt32
  written : Bytes
  binaryMode : Bool
  fits : written.length < length.toNat
  doubled : ∃ k ≤ 31, length.toNat = 2 ^ k

abbrev WriteM := Prog OStream

namespace OStream

/-- A new stream with a buffer of 64 bytes.  `OStream::OStream`. -/
def new : OStream := ⟨64, [], false, by decide, 6, by decide, rfl⟩

lemma capacity_le (s : OStream) : s.length.toNat ≤ 2 ^ 31 := by
  obtain ⟨k, hk, h⟩ := s.doubled
  rw [h]
  exact Nat.pow_le_pow_right (by norm_num) hk

def growBufferToAtLeast (newLength : UInt32) : WriteM Unit := fun s =>
  match h : growLength newLength growRounds s.length with
  | none => none
  | some l =>
    have hl := growLength_spec h s.doubled
    some ((), ⟨l, s.written, s.binaryMode, s.fits.trans_le hl.2.1, hl.1⟩)

def makeRoom (newLength : UInt32) : WriteM Unit := do
  let s ← get
  if newLength > s.length then growBufferToAtLeast newLength else pure ()

/-- Append bytes, growing the buffer first if they and the NUL behind them do not fit.
`OStream::OutputBinary`; `OStream::operator << (const char*)` does the same with `strcpy`. -/
def outputBinary (binaryData : Bytes) : WriteM Unit := do
  let s ← get
  makeRoom (UInt32.ofNat s.written.length + UInt32.ofNat binaryData.length + 1)
  let s ← get
  if h : (s.written ++ binaryData).length < s.length.toNat then
    set { s with written := s.written ++ binaryData, fits := h }
  else fault

/-- Overwrite bytes that were written before (`data[chPos] = ch`, or `memcpy` into `getData()`). -/
def poke (pos : ℕ) (bs : Bytes) : WriteM Unit := do
  let s ← get
  if h : pos + bs.length ≤ s.written.length then
    set { s with
      written := s.written.take pos ++ bs ++ s.written.drop (pos + bs.length)
      fits := by
        have := s.fits
        simp only [length_append, length_take, length_drop]
        omega }
  else fault

/-- `OStream::operator << (const char*)`. -/
def outputString {size : ℕ} (string : CString size) : WriteM Unit := outputBinary string.chars

/-- A blank is appended and then replaced, because `strcpy` cannot append a NUL.
`OStream::operator << (char)`. -/
def outputChar (ch : UInt8) : WriteM Unit := do
  let s ← get
  outputBinary [32]
  poke s.written.length [ch]

def binary (flag : Bool) : WriteM Unit := modify fun s => { s with binaryMode := flag }

/-- `OStream::operator << (int)`. -/
def outputInt (integer : Int32) : WriteM Unit := do
  let s ← get
  if s.binaryMode then outputBinary (IStream.htonl integer.toUInt32)
  else outputBinary (printInt integer)

/-- `OStream::operator << (UINT32)`. -/
def outputUInt32 (uinteger : UInt32) : WriteM Unit := do
  let s ← get
  if s.binaryMode then outputBinary (IStream.htonl uinteger)
  else outputBinary (printUInt32 uinteger)

def append (append : Bytes) : WriteM Unit := outputBinary append

/-- The packet made of `getData()` and `getLength()`: what was written, and the NUL behind it. -/
def toPacket (s : OStream) (type requestReplyID : UInt32) : Packet where
  type := type
  requestReplyID := requestReplyID
  data := s.written ++ [0]
  length_le := by
    have h₁ := s.fits
    have h₂ := s.capacity_le
    simp only [length_append, length_singleton, maxPacketLength]
    omega

/-! ## What the operators append -/

/-- Writing code that appends exactly `bs`, taking the stream from mode `m` to mode `m'`, and that
finishes as long as everything fits in `2 ^ 31` bytes. -/
structure Emits (m m' : Bool) (x : WriteM Unit) (bs : Bytes) : Prop where
  /-- Whenever it finishes, `bs` has been appended. -/
  sound : ∀ s s', s.binaryMode = m → x s = some ((), s') →
    s'.written = s.written ++ bs ∧ s'.binaryMode = m'
  total : ∀ s, s.binaryMode = m → s.written.length + bs.length < 2 ^ 31 → ∃ s', x s = some ((), s')

namespace Emits

variable {m m' m'' : Bool} {x y : WriteM Unit} {bs cs : Bytes}

lemma seq (hx : Emits m m' x bs) (hy : Emits m' m'' y cs) :
    Emits m m'' (x >>= fun _ => y) (bs ++ cs) where
  sound := by
    intro s s' hm h
    rw [bind_eq_some] at h
    obtain ⟨_, s1, h1, h2⟩ := h
    obtain ⟨hw1, hm1⟩ := hx.sound s s1 hm h1
    obtain ⟨hw2, hm2⟩ := hy.sound s1 s' hm1 h2
    exact ⟨by rw [hw2, hw1, append_assoc], hm2⟩
  total := by
    intro s hm hlen
    rw [length_append] at hlen
    obtain ⟨s1, h1⟩ := hx.total s hm (by omega)
    obtain ⟨hw1, hm1⟩ := hx.sound s s1 hm h1
    obtain ⟨s2, h2⟩ := hy.total s1 hm1 (by rw [hw1, length_append]; omega)
    exact ⟨s2, bind_eq_some.mpr ⟨(), s1, h1, h2⟩⟩

lemma pure (m : Bool) : Emits m m (Pure.pure ()) [] where
  sound := by
    intro s s' hm h
    cases h
    exact ⟨(append_nil _).symm, hm⟩
  total := fun s _ _ => ⟨s, rfl⟩

lemma growBufferToAtLeast_spec {s' : OStream}
    (h : growBufferToAtLeast newLength s = some ((), s')) :
    s'.written = s.written ∧ s'.binaryMode = s.binaryMode ∧ newLength.toNat ≤ s'.length.toNat := by
  unfold growBufferToAtLeast at h
  split at h
  · cases h
  · next l hl =>
      cases h
      exact ⟨rfl, rfl, (growLength_spec hl s.doubled).2.2⟩

lemma growBufferToAtLeast_total (s : OStream) (h : newLength.toNat ≤ 2 ^ 31) :
    ∃ s', growBufferToAtLeast newLength s = some ((), s') := by
  obtain ⟨k, hk, hlen⟩ := s.doubled
  have hs : (growLength newLength growRounds s.length).isSome :=
    growLength_isSome hk hlen (by unfold growRounds; omega) h
  unfold growBufferToAtLeast
  split
  · next hn => simp [hn] at hs
  · exact ⟨_, rfl⟩

lemma makeRoom_spec {s' : OStream} (h : makeRoom newLength s = some ((), s')) :
    s'.written = s.written ∧ s'.binaryMode = s.binaryMode ∧ newLength.toNat ≤ s'.length.toNat := by
  simp only [makeRoom, ite_eq_some, run_iff] at h
  rcases h with ⟨-, h⟩ | ⟨hle, -, rfl⟩
  · exact growBufferToAtLeast_spec h
  · exact ⟨rfl, rfl, by simpa [lt_iff_toNat_lt] using hle⟩

lemma makeRoom_total (s : OStream) (h : newLength.toNat ≤ 2 ^ 31) :
    ∃ s', makeRoom newLength s = some ((), s') := by
  by_cases hgt : newLength > s.length
  · obtain ⟨s', h'⟩ := growBufferToAtLeast_total s h
    exact ⟨s', bind_eq_some.mpr ⟨s, s, rfl, by rw [if_pos hgt]; exact h'⟩⟩
  · exact ⟨s, bind_eq_some.mpr ⟨s, s, rfl, by rw [if_neg hgt]; rfl⟩⟩

lemma outputBinary (m : Bool) (bs : Bytes) : Emits m m (outputBinary bs) bs where
  sound := by
    intro s s' hm h
    simp only [OStream.outputBinary, run_iff] at h
    obtain ⟨_, s1, hr, hs⟩ := h
    obtain ⟨hw, hmo, -⟩ := makeRoom_spec hr
    split_ifs at hs with hf
    · rw [set_eq_some] at hs
      rw [hs]
      exact ⟨congrArg (· ++ bs) hw, hmo.trans hm⟩
    · simp at hs
  total := by
    intro s hm hlen
    have hf := s.fits
    have hc := s.capacity_le
    -- the 32-bit sum does not wrap
    have hn : (ofNat s.written.length + ofNat bs.length + 1).toNat =
        s.written.length + bs.length + 1 := by
      have h1 : (1 : UInt32).toNat = 1 := rfl
      rw [UInt32.toNat_add, UInt32.toNat_add, toNat_ofNat', toNat_ofNat', h1]
      omega
    obtain ⟨s1, h₁⟩ := makeRoom_total s (hn.trans_le hlen)
    obtain ⟨hw, -, hr⟩ := makeRoom_spec h₁
    have hf1 : (s1.written ++ bs).length < s1.length.toNat := by
      rw [hw, length_append]
      omega
    refine ⟨{ s1 with written := s1.written ++ bs, fits := hf1 }, ?_⟩
    refine bind_eq_some.mpr ⟨s, s, rfl, bind_eq_some.mpr ⟨(), s1, h₁, ?_⟩⟩
    refine bind_eq_some.mpr ⟨s1, s1, rfl, ?_⟩
    rw [dif_pos hf1]
    rfl

lemma outputString (m : Bool) {size : ℕ} (string : CString size) :
    Emits m m (outputString string) string.chars :=
  outputBinary m string.chars

lemma binary (m m' : Bool) : Emits m m' (binary m') [] where
  sound := by
    intro s s' _ h
    rw [OStream.binary, modify_eq_some] at h
    rw [h]
    exact ⟨by simp, rfl⟩
  total := fun s _ _ => ⟨_, rfl⟩

lemma append (m : Bool) (bs : Bytes) : Emits m m (append bs) bs := outputBinary m bs

lemma withMode {f : OStream → WriteM Unit} (h : ∀ s, s.binaryMode = m → Emits m m' (f s) bs) :
    Emits m m' (get >>= f) bs where
  sound := by
    intro s s' hm hrun
    simp only [run_iff] at hrun
    exact (h _ hm).sound _ _ hm hrun
  total := by
    intro s hm hlen
    obtain ⟨s', h'⟩ := (h s hm).total s hm hlen
    exact ⟨s', bind_eq_some.mpr ⟨s, s, rfl, h'⟩⟩

lemma outputByMode (m : Bool) (binary text : Bytes) :
    Emits m m (do
      let s ← get
      if s.binaryMode then OStream.outputBinary binary else OStream.outputBinary text)
      (if m then binary else text) := by
  refine withMode fun s hs => ?_
  rw [hs, ← apply_ite OStream.outputBinary]
  exact outputBinary m _

lemma outputInt (m : Bool) (integer : Int32) :
    Emits m m (outputInt integer)
      (if m then IStream.htonl integer.toUInt32 else printInt integer) :=
  outputByMode m _ _

lemma outputUInt32 (m : Bool) (uinteger : UInt32) :
    Emits m m (outputUInt32 uinteger)
      (if m then IStream.htonl uinteger else printUInt32 uinteger) :=
  outputByMode m _ _

end Emits

lemma poke_eq_some {front back : Bytes} (old new : Bytes) (hs : s.written = front ++ old ++ back)
    (hlen : new.length = old.length) :
    ∃ s', poke front.length new s = some ((), s') ∧ s'.written = front ++ new ++ back ∧
      s'.binaryMode = s.binaryMode := by
  have hf : front.length + new.length ≤ s.written.length := by
    rw [hs, hlen]
    simp
  have hp : poke front.length new s = some ((), { s with
      written := s.written.take front.length ++ new ++ s.written.drop (front.length + new.length)
      fits := by
        have := s.fits
        simp only [length_append, length_take, length_drop]
        omega }) := by
    refine bind_eq_some.mpr ⟨s, s, rfl, ?_⟩
    rw [dif_pos hf]
    rfl
  refine ⟨_, hp, ?_, rfl⟩
  have hd : s.written.drop (front.length + new.length) = back := by
    rw [hs, drop_left' (by simp [hlen])]
  have ht : s.written.take front.length = front := by
    rw [hs, append_assoc, take_left]
  simp only [hd, ht]

/-- What was written at the front is overwritten. -/
lemma Emits.patch {m m' : Bool} {x : WriteM Unit} {back : Bytes} (old new : Bytes)
    (hx : Emits m m' x (old ++ back)) (hlen : new.length = old.length) :
    Emits m m' (do
      let s ← get
      x
      poke s.written.length new) (new ++ back) where
  sound := by
    intro s s' hm h
    simp only [run_iff] at h
    obtain ⟨_, s1, h1, h2⟩ := h
    obtain ⟨hw, hm1⟩ := hx.sound _ _ hm h1
    obtain ⟨s2, hp, hw2, hm2⟩ := poke_eq_some old new (hw.trans (append_assoc ..).symm) hlen
    cases h2.symm.trans hp
    exact ⟨by rw [hw2, append_assoc], hm2.trans hm1⟩
  total := by
    intro s hm hl
    rw [length_append, hlen, ← length_append] at hl
    obtain ⟨s1, h1⟩ := hx.total s hm hl
    obtain ⟨hw, -⟩ := hx.sound _ _ hm h1
    obtain ⟨s2, hp, -⟩ := poke_eq_some old new (hw.trans (append_assoc ..).symm) hlen
    exact ⟨s2, bind_eq_some.mpr ⟨s, s, rfl, bind_eq_some.mpr ⟨(), s1, h1, hp⟩⟩⟩

lemma Emits.outputChar (m : Bool) (ch : UInt8) : Emits m m (outputChar ch) [ch] :=
  patch [32] [ch] (outputBinary m [32]) rfl

end OStream

end Glomop
