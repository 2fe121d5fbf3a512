import Glomop.Text2doc.Doc

/-!
# Doc compression: the compressor

`compressbuf` goes through the text with a test string between two walking pointers, which grows as
long as it also stands further back; then it is issued as a copy, or its first character by itself.
A second pass, in place, joins neighbouring bytes that are each marked by a 1.

* First pass (`Walking`): the codes issued so far stand for the text up to the test string, less a
  space that is held back; and the test string without its last character stands at `pPrevHit`, too.

Source: `text2doc.c`.
-/

namespace Glomop.Text2doc

open Lib List Option UInt8 Code

/-- The first of `i` places from `t` on where the string of length `m_len` at `m` stands. -/
def memfind (buf : Bytes) (m m_len : ℕ) : ℕ → ℕ → Option ℕ
  | 0, _ => none
  | i + 1, t =>
    if buf[t]? = buf[m]? ∧ (buf.drop t).take m_len = (buf.drop m).take m_len then some t
    else memfind buf m m_len i (t + 1)

def issueByte (src : UInt8) : Bytes := if Plain src then [src] else [1, src]

/-- What is written for a character, and whether a space is held back then. -/
def issue (src : UInt8) (bSpace : Bool) : Bytes × Bool :=
  if bSpace then
    if 0x40 ≤ src ∧ src ≤ 0x7F then ([src ^^^ 0x80], false) else (32 :: issueByte src, false)
  else if src = 32 then ([], true)
  else (issueByte src, false)

def held (bSpace : Bool) : Bytes := if bSpace then [32] else []

/-- The variables of the first loop: the pointers, the output up to `len`, and the held back
space. -/
structure Walk where
  pPrevHit : ℕ
  pTestHead : ℕ
  pTestTail : ℕ
  out : Bytes
  bSpace : Bool

/-- Where the scan can begin: at most `(1 << DISP_BITS) - 1` before the test string. -/
def scanStart (pPrevHit pTestHead : ℕ) : ℕ :=
  if pTestHead - pPrevHit > 2047 then pTestHead - 2047 else pPrevHit

/-- `pTestTail` after a round; it does not go past the end. -/
def nextTail (pEnd pTestTail : ℕ) : ℕ := (if pTestTail = pEnd then pTestTail - 1 else pTestTail) + 1

/-- The codes are issued; `none` where an assertion fails.  `compressbuf`. -/
def issueCodes (buf : Bytes) (s : Walk) : Option Walk :=
  if s.pTestTail - s.pTestHead < 4 then
    buf[s.pTestHead]?.map fun src =>
      let issued := issue src s.bSpace
      { pPrevHit := 0
        pTestHead := s.pTestHead + 1
        pTestTail := nextTail buf.length s.pTestTail
        out := s.out ++ issued.1
        bSpace := issued.2 }
  else
    let dist := s.pTestHead - s.pPrevHit
    let compound := dist * 8 + (s.pTestTail - s.pTestHead - 4)
    if dist < 2048 ∧ s.pTestTail - s.pTestHead - 4 ≤ 7 then
      some
        { pPrevHit := 0
          pTestHead := s.pTestTail - 1
          pTestTail := nextTail buf.length s.pTestTail
          out := s.out ++ held s.bSpace ++
            [UInt8.ofNat (0x80 + compound / 256), UInt8.ofNat (compound % 256)]
          bSpace := false }
    else none

/-- One round of the first loop.  `compressbuf`. -/
def walkRound (buf : Bytes) (s : Walk) : Option Walk :=
  let pPrevHit := scanStart s.pPrevHit s.pTestHead
  let pHit := memfind buf s.pTestHead (s.pTestTail - s.pTestHead)
    (s.pTestHead - pPrevHit + 1) pPrevHit
  if pHit = none ∨ pHit = some s.pTestHead ∨ s.pTestTail - s.pTestHead > 10 ∨
      s.pTestTail = buf.length then
    issueCodes buf { s with pPrevHit := pPrevHit }
  else
    -- got a match
    pHit.map fun hit => { s with pPrevHit := hit, pTestTail := nextTail buf.length s.pTestTail }

/-- The first loop, for at most `fuel` rounds. -/
def walk (buf : Bytes) : ℕ → Walk → Option Walk
  | 0, _ => none
  | fuel + 1, s =>
    if s.pTestHead = buf.length then some s else (walkRound buf s).bind (walk buf fuel)

/-- The inner loop of the second pass: more bytes marked by a 1 join the group at `k`. -/
def mergeGroup (len k : ℕ) : ℕ → Bytes → ℕ → Option (Bytes × ℕ)
  | 0, _, _ => none
  | fuel + 1, buf, i =>
    buf[k]?.bind fun n =>
      if i + 2 < len ∧ buf[i + 2]? = some 1 ∧ n < 8 then
        let buf := buf.set k (n + 1)
        buf[i + 3]?.bind fun b => mergeGroup len k fuel (buf.set (k + (n + 1).toNat) b) (i + 2)
      else some (buf, i)

def mergeRound (len : ℕ) (buf : Bytes) (i k : ℕ) : Option (Bytes × ℕ × ℕ) :=
  buf[i]?.bind fun c =>
    let buf := buf.set k c
    if 0x80 ≤ c ∧ c < 0xC0 then
      buf[i + 1]?.map fun d => (buf.set (k + 1) d, i + 2, k + 2)
    else if c = 1 then
      buf[i + 1]?.bind fun b =>
        (mergeGroup len k (len + 1) (buf.set (k + 1) b) i).bind fun r =>
          r.1[k]?.map fun n => (r.1, r.2 + 2, k + n.toNat + 1)
    else some (buf, i + 1, k + 1)

/-- The second pass, for at most `fuel` rounds: the buffer and its length. -/
def merge (len : ℕ) : ℕ → Bytes → ℕ → ℕ → Option (Bytes × ℕ)
  | 0, _, _, _ => none
  | fuel + 1, buf, i, k =>
    if i < len then (mergeRound len buf i k).bind fun r => merge len fuel r.1 r.2.1 r.2.2
    else some (buf, k)

/-- The compressed text.  A round of the first loop brings the test string forward or makes it
longer, and it has at most eleven characters, so that twelve rounds a character are enough. -/
def compressbuf (buf : Bytes) : Option Bytes :=
  (walk buf (12 * buf.length + 12) ⟨0, 0, 1, [], false⟩).bind fun s =>
    let out := s.out ++ held s.bSpace
    (merge out.length (out.length + 1) out 0 0).map fun r => r.1.take r.2

/-! ## The first pass -/

def Code.Single : Code → Prop
  | .group bs _ => bs.length = 1
  | _ => True

def Emitted (buf : Bytes) (pos : ℕ) (out : Bytes) (bSpace : Bool) : Prop :=
  ∃ codes text, (∀ c ∈ codes, Code.Single c) ∧ out = codes.flatMap Code.bytes ∧
    textOf codes [] = some text ∧ text ++ held bSpace = buf.take pos

variable {buf : Bytes} {c : Code} {fuel : ℕ} {s : Walk} {src : UInt8}

section Emitted

variable {buf out : Bytes} {pos : ℕ} {bSpace : Bool}

lemma Emitted.append {pos' : ℕ} {bSpace' : Bool} (h : Emitted buf pos out bSpace) (new : List Code)
    (hs : ∀ c ∈ new, Code.Single c)
    (hn : ∀ text, text ++ held bSpace = buf.take pos →
      ∃ text', textOf new text = some text' ∧ text' ++ held bSpace' = buf.take pos') :
    Emitted buf pos' (out ++ new.flatMap bytes) bSpace' := by
  obtain ⟨codes, text, hco, rfl, ht, hp⟩ := h
  obtain ⟨text', ht', hp'⟩ := hn text hp
  refine ⟨codes ++ new, text', fun c hc => ?_, flatMap_append.symm, ?_, hp'⟩
  · exact (mem_append.mp hc).elim (hco c) (hs c)
  · rw [textOf_append, ht]
    exact ht'

def byteCode (src : UInt8) : Code :=
  if h : Plain src then .literal src h else .group [src] ⟨le_refl _, by simp⟩

lemma byteCode_bytes (src : UInt8) : (byteCode src).bytes = issueByte src := by
  unfold byteCode issueByte
  split_ifs <;> rfl

lemma byteCode_single (src : UInt8) : Code.Single (byteCode src) := by
  unfold byteCode
  split_ifs
  · trivial
  · exact length_singleton

lemma byteCode_apply (src : UInt8) (text : Bytes) :
    (byteCode src).apply text = some (text ++ [src]) := by
  unfold byteCode
  split_ifs <;> rfl

lemma take_succ_of_get (hs : buf[pos]? = some src) :
    buf.take (pos + 1) = buf.take pos ++ [src] := by
  rw [take_add_one, hs]
  rfl

def spaceCode : Code := .literal 32 ⟨by decide, by decide⟩

lemma Emitted.flush (h : Emitted buf pos out bSpace) :
    Emitted buf pos (out ++ held bSpace) false := by
  cases bSpace with
  | false => rwa [held, if_neg Bool.false_ne_true, append_nil]
  | true =>
    refine h.append [spaceCode] (fun c hc => ?_) fun text ht => ⟨text ++ [32], rfl, ?_⟩
    · rw [mem_singleton.mp hc]
      trivial
    · rw [← ht]
      simp [held]

lemma Emitted.byte (h : Emitted buf pos out false) (hs : buf[pos]? = some src) :
    Emitted buf (pos + 1) (out ++ issueByte src) false := by
  rw [← byteCode_bytes, ← flatMap_singleton bytes]
  refine h.append [byteCode src] (fun c hc => ?_) fun text ht => ⟨text ++ [src], ?_, ?_⟩
  · rw [mem_singleton.mp hc]
    exact byteCode_single src
  · rw [textOf, foldlM_cons, byteCode_apply]
    rfl
  · rw [take_succ_of_get hs, ← ht]
    simp [held]

lemma Emitted.issue (h : Emitted buf pos out bSpace) (hsr : buf[pos]? = some src) :
    Emitted buf (pos + 1) (out ++ (issue src bSpace).1) (issue src bSpace).2 := by
  unfold Text2doc.issue
  split_ifs with hs hl hb
  · -- the space and the letter are one code
    subst hs
    refine h.append [.space src hl] (fun c hc => ?_) fun text ht => ⟨text ++ [32, src], rfl, ?_⟩
    · rw [mem_singleton.mp hc]
      trivial
    · rw [take_succ_of_get hsr, ← ht]
      simp [held]
  · subst hs
    have hf := h.flush.byte hsr
    rwa [held, if_pos rfl, append_assoc, singleton_append] at hf
  · rw [Bool.not_eq_true] at hs
    subst hs hb
    rw [append_nil]
    obtain ⟨codes, text, hco, hout, ht, hp⟩ := h
    refine ⟨codes, text, hco, hout, ht, ?_⟩
    rw [take_succ_of_get hsr, ← hp]
    simp [held]
  · rw [Bool.not_eq_true] at hs
    subst hs
    exact h.byte hsr

lemma Emitted.copy {dist count : ℕ} (h : Emitted buf pos out false)
    (hco : dist < 2048 ∧ 3 ≤ count ∧ count ≤ 10) (hd : 1 ≤ dist) (hle : dist ≤ pos)
    (he : pos + count ≤ buf.length) (hs : ∀ j < count, buf[pos - dist + j]? = buf[pos + j]?) :
    Emitted buf (pos + count) (out ++ (copy dist count hco).bytes) false := by
  rw [← flatMap_singleton bytes]
  refine h.append [.copy dist count hco] (fun c hc => ?_) fun text ht =>
    ⟨buf.take (pos + count), ?_, ?_⟩
  · rw [mem_singleton.mp hc]
    trivial
  · have ht' : text = buf.take pos := by simpa [held] using ht
    have hl : (buf.take pos).length = pos := by
      rw [length_take]
      omega
    rw [textOf, foldlM_cons, ht', apply, hl, if_pos ⟨hd, hle⟩, copyBack_take hd hle he hs]
    rfl
  · simp [held]

end Emitted

lemma memfind_eq_some {m m_len i t hit : ℕ} (h : memfind buf m m_len i t = some hit) :
    t ≤ hit ∧ hit < t + i ∧ (buf.drop hit).take m_len = (buf.drop m).take m_len := by
  induction i generalizing t with
  | zero => cases h
  | succ i ih =>
    unfold memfind at h
    split_ifs at h with hs
    · cases h
      exact ⟨le_refl _, by omega, hs.2⟩
    · obtain ⟨hle, hlt, heq⟩ := ih h
      exact ⟨by omega, by omega, heq⟩

/-- The test string without its last character also stands at `pPrevHit`, not too far back. -/
def Hit (buf : Bytes) (s : Walk) : Prop :=
  s.pPrevHit < s.pTestHead ∧ s.pTestHead - s.pPrevHit ≤ 2047 ∧
    ∀ j < s.pTestTail - s.pTestHead - 1, buf[s.pPrevHit + j]? = buf[s.pTestHead + j]?

/-- **The invariant of the first loop.** -/
structure Walking (buf : Bytes) (s : Walk) : Prop where
  emitted : Emitted buf s.pTestHead s.out s.bSpace
  prev_le : s.pPrevHit ≤ s.pTestHead
  head_le : s.pTestHead ≤ buf.length
  head_lt : s.pTestHead < buf.length → s.pTestHead < s.pTestTail
  tail_le : s.pTestHead < buf.length → s.pTestTail ≤ buf.length
  short : s.pTestTail ≤ s.pTestHead + 11
  hit : 4 ≤ s.pTestTail - s.pTestHead → Hit buf s

def Walk.toGo (buf : Bytes) (s : Walk) : ℕ :=
  12 * (buf.length - s.pTestHead) + (12 - (s.pTestTail - s.pTestHead))

lemma walking_start (buf : Bytes) : Walking buf ⟨0, 0, 1, [], false⟩ where
  emitted := ⟨[], [], nofun, rfl, rfl, by simp [held]⟩
  prev_le := le_refl _
  head_le := Nat.zero_le _
  head_lt := fun _ => Nat.one_pos
  tail_le := fun h => h
  short := by decide
  hit := fun h => by simp at h

lemma nextTail_cases {pEnd pTestTail : ℕ} (hpos : 0 < pTestTail) (hle : pTestTail ≤ pEnd) :
    pTestTail = pEnd ∧ nextTail pEnd pTestTail = pEnd ∨
      pTestTail < pEnd ∧ nextTail pEnd pTestTail = pTestTail + 1 := by
  unfold nextTail
  split_ifs
  · omega
  · omega

lemma Walking.issueCodes (h : Walking buf s) (hm : s.pTestHead < buf.length) :
    ∃ s', issueCodes buf s = some s' ∧ Walking buf s' ∧ s'.toGo buf < s.toGo buf := by
  have hlt := h.head_lt hm
  have hle := h.tail_le hm
  have hsh := h.short
  have ht := nextTail_cases (Nat.zero_lt_of_lt hlt) hle
  unfold Text2doc.issueCodes
  dsimp only
  split_ifs with hf ha
  · -- the first character goes out
    have hsr : buf[s.pTestHead]? = some buf[s.pTestHead] := getElem?_eq_getElem hm
    rw [hsr]
    refine ⟨_, rfl, ?_, ?_⟩
    · refine ⟨h.emitted.issue hsr, Nat.zero_le _, hm, fun h' => ?_, fun _ => ?_, ?_, fun h' => ?_⟩
      all_goals dsimp only at *
      all_goals omega
    · simp only [Walk.toGo]
      omega
  · -- the test string goes out, less its last character
    obtain ⟨hp, hw, hs⟩ := h.hit (by omega)
    have hc : s.pTestHead - s.pPrevHit < 2048 ∧ 3 ≤ s.pTestTail - s.pTestHead - 1 ∧
        s.pTestTail - s.pTestHead - 1 ≤ 10 := by omega
    have he := h.emitted.flush.copy hc (by omega) (by omega) (by omega) fun j hj => by
      rw [show s.pTestHead - (s.pTestHead - s.pPrevHit) + j = s.pPrevHit + j by omega]
      exact hs j hj
    rw [show s.pTestHead + (s.pTestTail - s.pTestHead - 1) = s.pTestTail - 1 by omega, bytes,
      show s.pTestTail - s.pTestHead - 1 - 3 = s.pTestTail - s.pTestHead - 4 by omega] at he
    refine ⟨_, rfl, ?_, ?_⟩
    · refine ⟨he, Nat.zero_le _, ?_, fun h' => ?_, fun _ => ?_, ?_, fun h' => ?_⟩
      all_goals dsimp only at *
      all_goals omega
    · simp only [Walk.toGo]
      omega
  · obtain ⟨hp, hw, -⟩ := h.hit (by omega)
    exact (ha ⟨by omega, by omega⟩).elim

lemma Walking.scan (h : Walking buf s) :
    Walking buf { s with pPrevHit := scanStart s.pPrevHit s.pTestHead } := by
  have hp := h.prev_le
  have hs : scanStart s.pPrevHit s.pTestHead ≤ s.pTestHead := by
    unfold scanStart
    split_ifs <;> omega
  refine ⟨h.emitted, hs, h.head_le, h.head_lt, h.tail_le, h.short, fun hl => ?_⟩
  obtain ⟨hlt, hw, hsa⟩ := h.hit hl
  have heq : scanStart s.pPrevHit s.pTestHead = s.pPrevHit := by
    unfold scanStart
    split_ifs <;> omega
  rw [heq]
  exact ⟨hlt, hw, hsa⟩

lemma scanStart_le {pPrevHit pTestHead : ℕ} (h : pPrevHit ≤ pTestHead) :
    scanStart pPrevHit pTestHead ≤ pTestHead ∧ pTestHead - scanStart pPrevHit pTestHead ≤ 2047 := by
  unfold scanStart
  split_ifs <;> omega

/-- **A round of the first loop** keeps the invariant and comes closer to the end. -/
theorem Walking.round (h : Walking buf s) (hm : s.pTestHead < buf.length) :
    ∃ s', walkRound buf s = some s' ∧ Walking buf s' ∧ s'.toGo buf < s.toGo buf := by
  have hlt := h.head_lt hm
  have hle := h.tail_le hm
  have hsc := scanStart_le h.prev_le
  unfold walkRound
  dsimp only
  split_ifs with hi
  · exact h.scan.issueCodes hm
  · -- a match: the test string stands at the hit, which is before it
    rw [not_or, not_or, not_or] at hi
    obtain ⟨hf, he, hsh, hin⟩ := hi
    obtain ⟨hit, hhi⟩ := ne_none_iff_exists'.mp hf
    rw [hhi] at he ⊢
    obtain ⟨hge, hh, hs⟩ := memfind_eq_some hhi
    have hne : hit ≠ s.pTestHead := fun heq => he (congrArg some heq)
    have ht := nextTail_cases (Nat.zero_lt_of_lt hlt) hle
    refine ⟨_, rfl, ?_, ?_⟩
    · refine ⟨h.emitted, ?_, h.head_le, fun _ => ?_, fun _ => ?_, ?_,
        fun _ => ⟨?_, ?_, fun j hj => ?_⟩⟩
      all_goals dsimp only at *
      all_goals try omega
      have hj' : j < s.pTestTail - s.pTestHead := by omega
      have hat := congrArg (·[j]?) hs
      simpa [getElem?_take_of_lt hj'] using hat
    · simp only [Walk.toGo]
      omega

/-- **The first loop** ends, with codes for the whole text. -/
theorem Walking.walk (h : Walking buf s) (hf : s.toGo buf < fuel) :
    ∃ s', walk buf fuel s = some s' ∧ Emitted buf buf.length s'.out s'.bSpace := by
  induction fuel generalizing s with
  | zero => omega
  | succ fuel ih =>
    unfold walk
    split_ifs with he
    · exact ⟨s, rfl, he ▸ h.emitted⟩
    · have hm : s.pTestHead < buf.length := Nat.lt_of_le_of_ne h.head_le he
      obtain ⟨s1, hr, hw, hc⟩ := h.round hm
      rw [hr]
      exact ih hw (by omega)

/-! ## The second pass -/

section Merge

variable {buf front gap rest bs : Bytes} {k i len : ℕ}

lemma shift (front gap rest : Bytes) (x : UInt8) :
    (front ++ gap ++ x :: rest)[front.length + gap.length]? = some x ∧
      ∃ gap', gap'.length = gap.length ∧
        (front ++ gap ++ x :: rest).set front.length x = front ++ [x] ++ gap' ++ rest := by
  refine ⟨?_, ?_⟩
  · rw [← length_append, getElem?_append_right (le_refl _), Nat.sub_self]
    rfl
  · cases gap with
    | nil => exact ⟨[], rfl, by simp⟩
    | cons y gap => exact ⟨gap ++ [x], by simp, by simp⟩

lemma Code.eq_group_of_head (hs : c.Single) {rest' : Bytes}
    (h : (c.bytes ++ rest).head? = some 1) (hr : c.bytes ++ rest = rest') :
    ∃ b, c = .group [b] ⟨le_refl _, by simp⟩ ∧ rest' = 1 :: b :: rest := by
  cases c with
  | literal b hb =>
    have ho : b = 1 := some.inj h
    rw [ho] at hb
    exact absurd hb (by decide)
  | group bs hbs =>
    obtain ⟨b, rfl⟩ := length_eq_one_iff.mp hs
    exact ⟨b, rfl, hr.symm⟩
  | copy dist count hc =>
    have ho := congrArg toNat (some.inj h)
    rw [toNat_ofNat', Nat.mod_eq_of_lt (by omega)] at ho
    simp only [reduceToNat] at ho
    omega
  | space b hb =>
    have ho : b ^^^ 0x80 = 1 := some.inj h
    have hh := (space_byte hb).1
    rw [ho] at hh
    exact absurd hh (by decide)

lemma Code.bytes_ne_nil (c : Code) : c.bytes ≠ [] := by
  cases c <;> simp [bytes]

lemma length_le_bytes (codes : List Code) : codes.length ≤ (codes.flatMap bytes).length := by
  induction codes with
  | nil => exact Nat.zero_le _
  | cons c codes ih =>
    have hpos := length_pos_iff.mpr c.bytes_ne_nil
    rw [flatMap_cons, length_append, length_cons]
    omega

def Joins (bs : Bytes) (codes : List Code) (bs' : Bytes) (codes' : List Code) : Prop :=
  ∀ h : 1 ≤ bs.length ∧ bs.length ≤ 8, ∃ h' : 1 ≤ bs'.length ∧ bs'.length ≤ 8,
    ∀ text, textOf (.group bs h :: codes) text = textOf (.group bs' h' :: codes') text

lemma toNat_ofNat_length (hbs : bs.length ≤ 8) : (ofNat bs.length).toNat = bs.length := by
  rw [toNat_ofNat', Nat.mod_eq_of_lt (by omega)]

lemma mergeGroup_succ {b : UInt8} (fuel : ℕ) (hr : bs.length < 8)
    (hi : i + 2 = (front ++ ofNat bs.length :: bs).length + gap.length)
    (hlen : (front ++ ofNat bs.length :: bs ++ gap ++ 1 :: b :: rest).length = len) :
    ∃ gap', gap'.length = gap.length + 1 ∧
      mergeGroup len front.length (fuel + 1)
          (front ++ ofNat bs.length :: bs ++ gap ++ 1 :: b :: rest) i =
        mergeGroup len front.length fuel
          (front ++ ofNat (bs ++ [b]).length :: (bs ++ [b]) ++ gap' ++ rest) (i + 2) := by
  have hna := toNat_ofNat_length hr.le
  have hn : (front ++ ofNat bs.length :: bs ++ gap ++ 1 :: b :: rest)[front.length]? =
      some (ofNat bs.length) := by simp
  have hm : i + 2 < len ∧
      (front ++ ofNat bs.length :: bs ++ gap ++ 1 :: b :: rest)[i + 2]? = some 1 ∧
      ofNat bs.length < 8 := by
    refine ⟨?_, ?_, ?_⟩
    · rw [hi, ← hlen]
      simp only [length_append, length_cons]
      omega
    · rw [hi]
      exact (shift _ gap (b :: rest) 1).1
    · rw [lt_iff_toNat_lt, hna]
      exact hr
  have hs : ofNat bs.length + 1 = ofNat (bs ++ [b]).length := by
    rw [← UInt8.toNat_inj]
    simp [hna]
  have hk : front.length + (ofNat bs.length + 1).toNat =
      (front ++ ofNat (bs ++ [b]).length :: bs).length := by
    rw [hs, toNat_ofNat_length (by simpa using hr)]
    simp
  have hse : (front ++ ofNat bs.length :: bs ++ gap ++ 1 :: b :: rest).set front.length
      (ofNat bs.length + 1) =
      front ++ ofNat (bs ++ [b]).length :: bs ++ (gap ++ [1]) ++ b :: rest := by
    rw [hs]
    simp
  -- the byte moves down over the gap and its 1
  obtain ⟨hg, gap', hg', hsh⟩ := shift (front ++ ofNat (bs ++ [b]).length :: bs) (gap ++ [1]) rest b
  have hi3 : i + 3 = (front ++ ofNat (bs ++ [b]).length :: bs).length + (gap ++ [1]).length := by
    simp only [length_append, length_cons, length_nil] at hi ⊢
    omega
  refine ⟨gap', by simpa using hg', ?_⟩
  rw [mergeGroup, hn, bind_some, if_pos hm]
  dsimp only
  rw [hse, hi3, hg, bind_some, hk, hsh]
  simp

/-- **The inner loop** joins the group at `k` with groups behind it. -/
theorem mergeGroup_spec {codes : List Code} (hbs : 1 ≤ bs.length ∧ bs.length ≤ 8)
    (hs : ∀ c ∈ codes, Code.Single c) (hf : codes.length < fuel)
    (hlen : (front ++ ofNat bs.length :: bs ++ gap ++ codes.flatMap bytes).length = len)
    (hi : i + 2 = (front ++ ofNat bs.length :: bs).length + gap.length) :
    ∃ bs' gap' codes' i', mergeGroup len front.length fuel
        (front ++ ofNat bs.length :: bs ++ gap ++ codes.flatMap bytes) i =
          some (front ++ ofNat bs'.length :: bs' ++ gap' ++ codes'.flatMap bytes, i') ∧
      (front ++ ofNat bs'.length :: bs' ++ gap' ++ codes'.flatMap bytes).length = len ∧
      i' + 2 = (front ++ ofNat bs'.length :: bs').length + gap'.length ∧
      codes'.length ≤ codes.length ∧ (∀ c ∈ codes', Code.Single c) ∧ Joins bs codes bs' codes' := by
  induction fuel generalizing bs gap codes i with
  | zero => omega
  | succ fuel ih =>
    by_cases hj : bs.length < 8 ∧ (codes.flatMap bytes).head? = some 1
    · -- the next code is a group, of one byte
      obtain ⟨hr, hh⟩ := hj
      obtain _ | ⟨c, codes⟩ := codes
      · cases hh
      rw [flatMap_cons] at hh
      obtain ⟨b, rfl, hb⟩ := eq_group_of_head (hs c (.head _)) hh flatMap_cons.symm
      rw [hb] at hlen ⊢
      obtain ⟨gap1, hg1, hl1⟩ := mergeGroup_succ fuel hr hi hlen
      have hb1 : 1 ≤ (bs ++ [b]).length ∧ (bs ++ [b]).length ≤ 8 := by
        rw [length_append, length_singleton]
        omega
      have hle1 : (front ++ ofNat (bs ++ [b]).length :: (bs ++ [b]) ++ gap1 ++
          codes.flatMap bytes).length = len := by
        simp only [length_append, length_cons, length_nil] at hlen ⊢
        omega
      have hi1 : i + 2 + 2 = (front ++ ofNat (bs ++ [b]).length :: (bs ++ [b])).length +
          gap1.length := by
        simp only [length_append, length_cons, length_nil] at hi ⊢
        omega
      obtain ⟨bs', gap', codes', i', hl, hl', hi', hle, hs', hjo⟩ :=
        ih hb1 (fun c hc => hs c (.tail _ hc)) (Nat.lt_of_succ_lt_succ hf) hle1 hi1
      refine ⟨bs', gap', codes', i', hl1.trans hl, hl', hi', hle.trans (Nat.le_succ _),
        hs', fun h => ?_⟩
      obtain ⟨h', ht⟩ := hjo hb1
      refine ⟨h', fun text => ?_⟩
      rw [← ht]
      simp [textOf, foldlM_cons, apply]
    · refine ⟨bs, gap, codes, i, ?_, hlen, hi, le_refl _, hs, fun h => ⟨h, fun _ => rfl⟩⟩
      have hn : (front ++ ofNat bs.length :: bs ++ gap ++
          codes.flatMap bytes)[front.length]? = some (ofNat bs.length) := by simp
      rw [mergeGroup, hn, bind_some, if_neg]
      rintro ⟨-, ho, hr⟩
      rw [lt_iff_toNat_lt, toNat_ofNat_length hbs.2] at hr
      rw [hi, ← length_append, getElem?_append_right (le_refl _), Nat.sub_self,
        ← head?_eq_getElem?] at ho
      exact hj ⟨hr, ho⟩

/-- **The invariant of the second pass**: the codes up to `k` and those from `i` on stand for the
text. -/
structure Merging (text : Bytes) (len : ℕ) (buf : Bytes) (i k : ℕ) (codes : List Code) : Prop where
  single : ∀ c ∈ codes, Code.Single c
  length_eq : buf.length = len
  parts : ∃ joined gap, buf = joined.flatMap Code.bytes ++ gap ++ codes.flatMap Code.bytes ∧
    k = (joined.flatMap Code.bytes).length ∧ i = k + gap.length ∧
    textOf (joined ++ codes) [] = some text

lemma flatMap_bytes_concat (codes : List Code) (c : Code) :
    (codes ++ [c]).flatMap bytes = codes.flatMap bytes ++ c.bytes := by
  rw [flatMap_append, flatMap_singleton]

variable {text : Bytes} {codes : List Code}

lemma Merging.one {x : UInt8} (h : Merging text len buf i k (c :: codes)) (hb : c.bytes = [x])
    (hr : ¬ (0x80 ≤ x ∧ x < 0xC0)) (hx : x ≠ 1) :
    mergeRound len buf i k = some (buf.set k x, i + 1, k + 1) ∧
      Merging text len (buf.set k x) (i + 1) (k + 1) codes := by
  obtain ⟨joined, gap, rfl, rfl, rfl, ht⟩ := h.parts
  rw [flatMap_cons, hb, singleton_append]
  obtain ⟨hg, gap', hg', hs⟩ := shift (joined.flatMap bytes) gap (codes.flatMap bytes) x
  refine ⟨?_, fun c hc => h.single c (.tail _ hc), ?_, joined ++ [c], gap', ?_, ?_, ?_, ?_⟩
  · rw [mergeRound, hg, bind_some]
    simp only [if_neg hr, if_neg hx]
  · have hl := h.length_eq
    rw [flatMap_cons, hb, singleton_append] at hl
    rw [length_set, hl]
  · rw [hs, flatMap_bytes_concat, hb]
  · rw [flatMap_bytes_concat, hb, length_append, length_singleton]
  · omega
  · rwa [append_assoc, singleton_append]

lemma shift_two (front gap rest : Bytes) (x y : UInt8) :
    ∃ gap', gap'.length = gap.length ∧
      (front ++ gap ++ x :: y :: rest)[front.length + gap.length]? = some x ∧
      ((front ++ gap ++ x :: y :: rest).set front.length x)[front.length + gap.length + 1]? =
        some y ∧
      ((front ++ gap ++ x :: y :: rest).set front.length x).set (front.length + 1) y =
        front ++ [x, y] ++ gap' ++ rest := by
  obtain ⟨hg, gap1, hg1, hs⟩ := shift front gap (y :: rest) x
  obtain ⟨hg', gap', hga', hs'⟩ := shift (front ++ [x]) gap1 rest y
  rw [length_append, length_singleton] at hg' hs'
  refine ⟨gap', hga'.trans hg1, hg, ?_, ?_⟩
  · rw [hs, ← hg', hg1]
    congr 1
    omega
  · rw [hs, hs']
    simp

lemma Merging.two {x y : UInt8} (h : Merging text len buf i k (c :: codes))
    (hb : c.bytes = [x, y]) :
    buf[i]? = some x ∧ (buf.set k x)[i + 1]? = some y ∧
      Merging text len ((buf.set k x).set (k + 1) y) (i + 2) (k + 2) codes := by
  obtain ⟨joined, gap, rfl, rfl, rfl, ht⟩ := h.parts
  rw [flatMap_cons, hb, cons_append, singleton_append]
  obtain ⟨gap', hga', hg, hg', hs⟩ := shift_two (joined.flatMap bytes) gap (codes.flatMap bytes) x y
  refine ⟨hg, hg', fun c hc => h.single c (.tail _ hc), ?_, joined ++ [c], gap', ?_, ?_, ?_, ?_⟩
  · have hl := h.length_eq
    rw [flatMap_cons, hb, cons_append, singleton_append] at hl
    rw [length_set, length_set, hl]
  · rw [hs, flatMap_bytes_concat, hb]
  · rw [flatMap_bytes_concat, hb, length_append]
    rfl
  · omega
  · rwa [append_assoc, singleton_append]

lemma Merging.group {b : UInt8}
    (h : Merging text len buf i k (.group [b] ⟨le_refl _, by simp⟩ :: codes)) :
    buf[i]? = some 1 ∧ (buf.set k 1)[i + 1]? = some b ∧
      ∃ buf' i' n codes',
        mergeGroup len k (len + 1) ((buf.set k 1).set (k + 1) b) i = some (buf', i') ∧
        buf'[k]? = some n ∧ codes'.length ≤ codes.length ∧
        Merging text len buf' (i' + 2) (k + n.toNat + 1) codes' := by
  have hl := h.length_eq
  obtain ⟨joined, gap, rfl, rfl, rfl, ht⟩ := h.parts
  rw [flatMap_cons, bytes] at hl ⊢
  obtain ⟨gap1, hg1, hg, hg', hse⟩ := shift_two (joined.flatMap bytes) gap (codes.flatMap bytes) 1 b
  have hs1 : ((joined.flatMap bytes ++ gap ++ 1 :: b :: codes.flatMap bytes).set
      (joined.flatMap bytes).length 1).set ((joined.flatMap bytes).length + 1) b =
      joined.flatMap bytes ++ ofNat [b].length :: [b] ++ gap1 ++ codes.flatMap bytes := hse
  refine ⟨hg, hg', ?_⟩
  have hl1 : (joined.flatMap bytes ++ ofNat [b].length :: [b] ++ gap1 ++
      codes.flatMap bytes).length = len := by
    rw [← hs1, length_set, length_set]
    exact hl
  have hf : codes.length < len + 1 := by
    have hle := length_le_bytes codes
    rw [← hl1, length_append]
    omega
  have ho : 1 ≤ [b].length ∧ [b].length ≤ 8 := ⟨le_refl _, by simp⟩
  have hi1 : (joined.flatMap bytes).length + gap.length + 2 =
      (joined.flatMap bytes ++ ofNat [b].length :: [b]).length + gap1.length := by
    simp only [length_append, length_cons, length_nil]
    omega
  obtain ⟨bs', gap', codes', i', hlo, hl', hi', hle, hs', hj⟩ :=
    mergeGroup_spec ho (fun c hc => h.single c (.tail _ hc)) hf hl1 hi1
  obtain ⟨hb', hs⟩ := hj ho
  refine ⟨_, i', ofNat bs'.length, codes', (congrArg (mergeGroup len _ _ · _) hs1).trans hlo,
    by simp, hle, hs', hl', joined ++ [.group bs' hb'], gap', ?_, ?_, ?_, ?_⟩
  · rw [flatMap_bytes_concat, bytes]
  · rw [flatMap_bytes_concat, bytes, toNat_ofNat_length hb'.2, length_append,
      length_cons, Nat.add_assoc]
  · rw [hi', toNat_ofNat_length hb'.2, length_append, length_cons]
    omega
  · rw [append_assoc, singleton_append, textOf_append]
    rw [textOf_append] at ht
    rw [← ht]
    exact congrArg _ (funext fun text => (hs text).symm)

/-- **A round of the second pass** takes a code from what is left. -/
theorem Merging.round (h : Merging text len buf i k (c :: codes)) :
    ∃ buf' i' k' codes', mergeRound len buf i k = some (buf', i', k') ∧
      codes'.length ≤ codes.length ∧
      Merging text len buf' i' k' codes' := by
  cases c with
  | literal b hb =>
    have hn : b ≠ 1 := by
      rintro rfl
      exact absurd hb (by decide)
    obtain ⟨hm, hne⟩ := h.one rfl (fun hrun => absurd hb.1 (UInt8.not_lt.mpr hrun.1)) hn
    exact ⟨_, _, _, codes, hm, le_refl _, hne⟩
  | space b hb =>
    have hh := (space_byte hb).1
    have hn : b ^^^ 0x80 ≠ 1 := fun ho => absurd (ho ▸ hh) (by decide)
    obtain ⟨hm, hne⟩ := h.one rfl (fun hrun => absurd hrun.2 (UInt8.not_lt.mpr hh)) hn
    exact ⟨_, _, _, codes, hm, le_refl _, hne⟩
  | copy dist count hc =>
    obtain ⟨hg, hg', hne⟩ := h.two rfl
    have hrun : 0x80 ≤ ofNat (0x80 + (dist * 8 + (count - 3)) / 256) ∧
        ofNat (0x80 + (dist * 8 + (count - 3)) / 256) < 0xC0 := by
      rw [le_iff_toNat_le, lt_iff_toNat_lt, toNat_ofNat', Nat.mod_eq_of_lt (by omega)]
      simp only [reduceToNat]
      omega
    refine ⟨_, _, _, codes, ?_, le_refl _, hne⟩
    rw [mergeRound, hg, bind_some]
    simp only [if_pos hrun, hg', map_some]
  | group bs hbs =>
    obtain ⟨b, rfl⟩ := length_eq_one_iff.mp (h.single _ (.head _))
    obtain ⟨hg, hg', buf', i', n, codes', hl, hn, hle, hne⟩ := h.group
    refine ⟨_, _, _, codes', ?_, hle, hne⟩
    rw [mergeRound, hg, bind_some]
    simp [hg', hl, hn]

/-- **The second pass** ends, with codes for the same text. -/
theorem Merging.merge (h : Merging text len buf i k codes) (hf : codes.length < fuel) :
    ∃ r, merge len fuel buf i k = some r ∧
      ∃ joined, r.1.take r.2 = joined.flatMap bytes ∧ textOf joined [] = some text := by
  induction fuel generalizing buf i k codes with
  | zero => omega
  | succ fuel ih =>
    unfold merge
    obtain _ | ⟨c, codes⟩ := codes
    · obtain ⟨joined, gap, hb, hk, hi, ht⟩ := h.parts
      rw [flatMap_nil, append_nil] at hb
      have he : ¬ i < len := by
        rw [← h.length_eq, hb, length_append, hi, hk]
        omega
      rw [if_neg he]
      refine ⟨_, rfl, joined, ?_, by rwa [append_nil] at ht⟩
      rw [hb, hk, take_left]
    · have hm : i < len := by
        obtain ⟨joined, gap, hb, hk, hi, -⟩ := h.parts
        have hpos := length_pos_iff.mpr c.bytes_ne_nil
        rw [← h.length_eq, hb, hi, hk, flatMap_cons]
        simp only [length_append]
        omega
      obtain ⟨buf', i', k', codes', hr, hle, hn⟩ := h.round
      rw [if_pos hm, hr]
      exact ih hn (by rw [length_cons] at hf; omega)

end Merge

/-- **Doc compression is lossless.**  The compressor returns, with no assertion failed, and decoding
what it returns gives the text. -/
theorem decode_compressbuf (buf : Bytes) :
    ∃ out, compressbuf buf = some out ∧ decode [] out = some buf := by
  have hen : Walk.toGo buf ⟨0, 0, 1, [], false⟩ < 12 * buf.length + 12 := by
    simp only [Walk.toGo]
    omega
  obtain ⟨s, hw, he⟩ := (walking_start buf).walk hen
  obtain ⟨codes, text, hs, hout, ht, hp⟩ := he.flush
  have ht' : text = buf := by simpa [held] using hp
  subst ht'
  have hm : Merging text (s.out ++ held s.bSpace).length (s.out ++ held s.bSpace) 0 0 codes :=
    ⟨hs, rfl, [], [], hout, rfl, rfl, ht⟩
  have hf : codes.length < (s.out ++ held s.bSpace).length + 1 := by
    rw [hout]
    exact Nat.lt_succ_of_le (length_le_bytes codes)
  obtain ⟨r, hme, joined, hta, hj⟩ := hm.merge hf
  refine ⟨r.1.take r.2, ?_, ?_⟩
  · unfold compressbuf
    rw [hw, bind_some]
    dsimp only
    rw [hme, map_some]
  · rw [hta, decode_codes, hj]

end Glomop.Text2doc
