import Glomop.Network.RawStream

/-!
# Which parses depend only on the packet

`RawStream.PacketOnly`: every memory that holds the packet gives the same results, nothing behind
the packet is read, and each string extraction succeeds exactly if its delimiter is in the packet
within the width.  It does not hold of every sequence of operations: `operator >> (char*)` looks at
`*current` once more behind the packet, the test of a counted read may wrap around, and a width of 0
is no bound.
-/

namespace Glomop

open Lib IStream Prog UInt32

variable {α : Type} {memory : Memory} {op : Op} {ops : List Op} {s : RawStream}

namespace RawStream

/-! ## Counted reads -/

/-- Reading `count` bytes is refused, or the bytes lie in the packet. -/
def CountFits (s : RawStream) (count : UInt32) : Prop :=
  s.length < s.position + count ∨ s.position.toNat + count.toNat ≤ s.length.toNat

lemma span_inPacket_iff {count : UInt32} (h : ¬ s.length < s.position + count) :
    (∀ i ∈ span s.position count, i < s.length) ↔
      s.position.toNat + count.toNat ≤ s.length.toNat := by
  have hlen := s.length.toNat_lt
  have hpos := s.position.toNat_lt
  have hc := count.toNat_lt
  rw [lt_iff_toNat_lt, UInt32.toNat_add] at h
  simp only [span, List.mem_map, List.mem_range, forall_exists_index, and_imp,
    forall_apply_eq_imp_iff₂, lt_iff_toNat_lt, UInt32.toNat_add, toNat_ofNat']
  constructor
  · intro hin
    by_contra hlt
    -- the first byte behind the packet, or the first byte at all, is among those read
    have hf := hin 0
    have hb := hin (s.length.toNat - s.position.toNat)
    omega
  · intro hle i hi
    omega

def Quiet {α : Type} (x : Prog RawStream α) : Prop :=
  ∀ s, ∃ a s', x s = some (a, s') ∧ s'.length = s.length ∧ s'.touched = s.touched

lemma Quiet.pure (a : α) : Quiet (Pure.pure a : Prog RawStream α) := fun s => ⟨a, s, rfl, rfl, rfl⟩

lemma Quiet.modify {f : RawStream → RawStream} (hl : ∀ s, (f s).length = s.length)
    (ht : ∀ s, (f s).touched = s.touched) : Quiet (modify f : Prog RawStream PUnit) :=
  fun s => ⟨(), f s, rfl, hl s, ht s⟩

lemma Quiet.bind {β : Type} {x : Prog RawStream α} {f : α → Prog RawStream β} (hx : Quiet x)
    (hf : ∀ a, Quiet (f a)) : Quiet (x >>= f) := by
  intro s
  obtain ⟨a, s1, h1, hl1, ht1⟩ := hx s
  obtain ⟨b, s2, h2, hl2, ht2⟩ := hf a s1
  exact ⟨b, s2, (bind_run h1 f).trans h2, hl2.trans hl1, ht2.trans ht1⟩

lemma quiet_streamReturn (errorCode : Errors) : Quiet (streamReturn errorCode) := by
  refine .modify (fun s => ?_) fun s => ?_ <;> split_ifs <;> rfl

lemma inPacket_congr {s' : RawStream} (hl : s'.length = s.length)
    (ht : s'.touched = s.touched) : s'.InPacket ↔ s.InPacket := by
  unfold InPacket
  rw [hl, ht]

lemma Quiet.safe {x : Prog RawStream α} (hx : Quiet x) (hs : s.InPacket) : Safe x s := by
  obtain ⟨a, s', h, hl, ht⟩ := hx s
  exact ⟨a, s', h, (inPacket_congr hl ht).mpr hs⟩

lemma safe_bind_iff {β : Type} {x : Prog RawStream α} {f : α → Prog RawStream β}
    (hf : ∀ a, Quiet (f a)) : Safe (x >>= f) s ↔ Safe x s := by
  constructor
  · rintro ⟨b, s', h, hs'⟩
    obtain ⟨a, s1, h1, h2⟩ := bind_eq_some.mp h
    obtain ⟨_, _, h3, hl, ht⟩ := hf a s1
    cases h2.symm.trans h3
    exact ⟨a, s1, h1, (inPacket_congr hl ht).mp hs'⟩
  · rintro ⟨a, s1, h1, hs1⟩
    obtain ⟨b, s', h2, hl, ht⟩ := hf a s1
    exact ⟨b, s', (bind_run h1 f).trans h2, (inPacket_congr hl ht).mpr hs1⟩

lemma safe_counted_iff (memory : Memory) {count : UInt32} {refuse : Prog RawStream α}
    {rest : Bytes → Prog RawStream α} (hs : s.InPacket) (hr : Quiet refuse)
    (hrs : ∀ bytes, Quiet (rest bytes)) :
    Safe (if s.position + count > s.length then refuse else memcpy memory count >>= rest) s ↔
      s.CountFits count := by
  by_cases ho : s.length < s.position + count
  · rw [if_pos ho]
    exact ⟨fun _ => .inl ho, fun _ => hr.safe hs⟩
  · rw [if_neg ho, safe_bind_iff hrs]
    have hre : Safe (memcpy memory count) s ↔ ∀ i ∈ span s.position count, i < s.length := by
      constructor
      · rintro ⟨a, s', h, hs'⟩ i hi
        cases h
        exact hs' i (List.mem_append_left _ hi)
      · intro hsp
        refine ⟨_, _, rfl, fun i hi => ?_⟩
        rcases List.mem_append.mp hi with hi | hi
        · exact hsp i hi
        · exact hs i hi
    rw [hre, span_inPacket_iff ho]
    exact ⟨.inr, fun h => h.resolve_left ho⟩

section Counted

variable {memory : Memory} {s : RawStream}

lemma safe_inputBinary_iff (hg : s.isGood = true) (hs : s.InPacket) (n : UInt32) :
    Safe (inputBinary memory n) s ↔ s.CountFits n := by
  have hr (bytes : Bytes) : Quiet (do
      modify fun s : RawStream => { s with position := s.position + n }
      streamReturn .success
      return some bytes) :=
    .bind (.modify (fun _ => rfl) fun _ => rfl) fun _ =>
      .bind (quiet_streamReturn _) fun _ => .pure (some bytes)
  rw [← safe_counted_iff memory hs
    (.bind (quiet_streamReturn .errFormattingError) fun _ => .pure none) hr]
  unfold Safe inputBinary
  rw [get_bind_run, if_pos hg]

lemma safe_extract_iff (hg : s.isGood = true) (hs : s.InPacket) (n : UInt32) :
    Safe (extract memory n) s ↔ s.CountFits n := by
  have hr (bytes : Bytes) : Quiet (do
      modify fun s : RawStream => { s with position := s.position + n }
      return some bytes) :=
    .bind (.modify (fun _ => rfl) fun _ => rfl) fun _ => .pure (some bytes)
  rw [← safe_counted_iff memory hs
    (.bind (quiet_streamReturn .errFormattingError) fun _ => .pure none) hr]
  unfold Safe extract
  rw [get_bind_run, if_pos hg]

end Counted

/-! ## Wrap-around in a counted read -/

/-- A counted read returns; it copies bytes only if the packet holds so many behind the cursor, and
otherwise leaves the cursor where it is and the stream no longer good. -/
def KeepsBounds (x : Prog RawStream (Option Bytes)) (s : RawStream) (n : UInt32) : Prop :=
  ∃ copied s', x s = some (copied, s') ∧
    (copied ≠ none → s.position.toNat + n.toNat ≤ s.length.toNat) ∧
    (s.length.toNat < s.position.toNat + n.toNat → s'.position = s.position ∧ s'.isGood = false)

/-- The sum of the cursor and the count does not fit a word, and what is left of it is small enough
to pass for a position of the packet. -/
def WrapsInside (s : RawStream) (n : UInt32) : Prop :=
  2 ^ 32 ≤ s.position.toNat + n.toNat ∧ s.position.toNat + n.toNat - 2 ^ 32 ≤ s.length.toNat

/-- What `InputBinary` and `Extract` have in common. -/
structure CountedRead (x : Prog RawStream (Option Bytes)) (s : RawStream) (n : UInt32) : Prop where
  bad : s.isGood = false → x s = some (none, s)
  refused : s.isGood = true → s.length < s.position + n →
    x s = some (none, { s with isGood := false, status := .errFormattingError })
  copied : s.isGood = true → ¬ s.length < s.position + n →
    ∃ bytes s', x s = some (some bytes, s')

lemma countedRead_inputBinary (memory : Memory) (s : RawStream) (n : UInt32) :
    CountedRead (inputBinary memory n) s n where
  bad hb := by
    unfold inputBinary
    rw [get_bind_run, if_neg (Bool.eq_false_iff.mp hb)]
    rfl
  refused hg ho := by
    unfold inputBinary
    rw [get_bind_run, if_pos hg, if_pos ho]
    rfl
  copied hg ho := by
    unfold inputBinary
    rw [get_bind_run, if_pos hg, if_neg ho]
    exact ⟨_, _, rfl⟩

lemma countedRead_extract (memory : Memory) (s : RawStream) (n : UInt32) :
    CountedRead (extract memory n) s n where
  bad hb := by
    unfold extract
    rw [get_bind_run, if_neg (Bool.eq_false_iff.mp hb)]
    rfl
  refused hg ho := by
    unfold extract
    rw [get_bind_run, if_pos hg, if_pos ho]
    rfl
  copied hg ho := by
    unfold extract
    rw [get_bind_run, if_pos hg, if_neg ho]
    exact ⟨_, _, rfl⟩

lemma wrapsInside_iff (s : RawStream) (n : UInt32) :
    s.WrapsInside n ↔ ¬ s.length < s.position + n ∧
      s.length.toNat < s.position.toNat + n.toNat := by
  have hl := s.length.toNat_lt
  have hp := s.position.toNat_lt
  have hn := n.toNat_lt
  rw [lt_iff_toNat_lt, UInt32.toNat_add]
  unfold WrapsInside
  omega

lemma CountedRead.keepsBounds_iff {x : Prog RawStream (Option Bytes)} {n : UInt32}
    (h : CountedRead x s n) : KeepsBounds x s n ↔ (s.isGood = true → ¬ s.WrapsInside n) := by
  rw [wrapsInside_iff]
  cases hg : s.isGood with
  | false =>
    refine ⟨fun _ => (fun hfa => absurd hfa Bool.false_ne_true), fun _ => ?_⟩
    exact ⟨none, s, h.bad hg, fun hne => absurd rfl hne, fun _ => ⟨rfl, hg⟩⟩
  | true =>
    by_cases ho : s.length < s.position + n
    · refine ⟨fun _ _ hw => hw.1 ho, fun _ => ?_⟩
      exact ⟨none, _, h.refused hg ho, fun hne => absurd rfl hne, fun _ => ⟨rfl, rfl⟩⟩
    · obtain ⟨bytes, s', hrun⟩ := h.copied hg ho
      constructor
      · rintro ⟨copied, s1, hr', hf, _⟩ _ ⟨_, hl⟩
        cases hrun.symm.trans hr'
        exact absurd (hf (Option.some_ne_none bytes)) (Nat.not_le.mpr hl)
      · intro hw
        have hf : s.position.toNat + n.toNat ≤ s.length.toNat := by
          by_contra hl
          exact hw rfl ⟨ho, Nat.not_le.mp hl⟩
        exact ⟨some bytes, s', hrun, fun _ => hf, fun hl => absurd hf (Nat.not_le.mpr hl)⟩

/-- **When a counted read keeps to the packet**: whenever the sum of the cursor and the count does
not wrap around into it. -/
theorem keepsBounds_counted_iff (memory : Memory) (s : RawStream) (n : UInt32) :
    (KeepsBounds (inputBinary memory n) s n ∧ KeepsBounds (extract memory n) s n) ↔
      (s.isGood = true → ¬ s.WrapsInside n) := by
  rw [(countedRead_inputBinary memory s n).keepsBounds_iff,
    (countedRead_extract memory s n).keepsBounds_iff, and_self_iff]

/-- A packet of eight bytes whose first word is a length of `2 ^ 32 - 4`: extracting so many bytes
behind the word is not refused. -/
theorem extract_past_packet :
    ∃ (values : List Value) (s : RawStream),
      execAll (fun i => if i < 3 then 255 else 252) [.binary true, .uint32]
        (ofBuffer 8 .success) = some (values, s) ∧
      values = [.nothing, .uint32 (some 4294967292)] ∧
      ¬ KeepsBounds (extract (fun i => if i < 3 then 255 else 252) 4294967292) s 4294967292 := by
  refine ⟨_, _, rfl, by decide, ?_⟩
  rw [(countedRead_extract _ _ _).keepsBounds_iff]
  intro hk
  exact hk rfl ⟨by decide, by decide⟩

/-! ## Which sequences of operations depend only on the packet -/

variable {ofWord : UInt32 → α} {scan : Bytes → Option α}

lemma safe_inputNumber_text_iff (hg : s.isGood = true) (hm : s.binaryMode = false) :
    Safe (inputNumber ofWord scan memory) s ↔
      Safe (inputString memory) { s with stringWidth := ofNat numberWidth } := by
  unfold Safe inputNumber
  rw [get_bind_run, if_pos hg, if_neg (by simp [hm]), bind_run ((modify_eq_some (u := ⟨⟩)).mpr rfl)]
  refine @safe_bind_iff _ { s with stringWidth := ofNat numberWidth } _ (inputString memory)
    _ fun text => ?_
  refine .bind (.modify (fun _ => rfl) fun _ => rfl) fun _ s' => ?_
  rw [get_bind_run]
  split_ifs
  · cases scan (cString (text.getD [])) with
    | none => exact Quiet.bind (quiet_streamReturn _) (fun _ => .pure none) s'
    | some v => exact Quiet.pure (some v) s'
  · exact Quiet.pure none s'

lemma safe_inputNumber_binary_iff (hg : s.isGood = true) (hm : s.binaryMode = true) :
    Safe (inputNumber ofWord scan memory) s ↔ Safe (inputBinary memory 4) s := by
  have hr (bytes : Option Bytes) : Quiet (Pure.pure
      (bytes.map fun bytes => ofWord (ntohl bytes)) : Prog RawStream (Option α)) := .pure _
  rw [← safe_bind_iff hr]
  unfold Safe inputNumber
  rw [get_bind_run, if_pos hg, if_pos hm]

lemma safe_of_not_good {x : RawStream → Prog RawStream (Option α)} (hg : ¬ s.isGood = true)
    (hs : s.InPacket) :
    Safe (do
      let s ← get
      if s.isGood then x s else return none) s := by
  unfold Safe
  rw [get_bind_run, if_neg hg]
  exact ⟨none, s, rfl, hs⟩

def NumberInside (memory : Memory) (s : RawStream) : Prop :=
  if s.binaryMode then s.CountFits 4
  else s.HasDelimiter memory ∨ s.position.toNat + numberWidth ≤ s.length.toNat

lemma safe_inputNumber_iff (hs : s.InPacket) :
    Safe (inputNumber ofWord scan memory) s ↔ (s.isGood = true → s.NumberInside memory) := by
  by_cases hg : s.isGood = true
  · unfold NumberInside
    cases hm : s.binaryMode with
    | true => simp [safe_inputNumber_binary_iff hg hm, safe_inputBinary_iff hg hs, hg]
    | false =>
      rw [safe_inputNumber_text_iff hg hm,
        safe_inputString_iff (s := { s with stringWidth := ofNat numberWidth }) hg hs]
      have hw : (ofNat numberWidth - 1).toNat + 1 = numberWidth := rfl
      simp only [hg, forall_true_left, Bool.false_eq_true, if_false]
      rw [← hw, ← Nat.add_assoc, Nat.succ_le_iff]
      rfl
  · exact ⟨fun _ h => absurd h hg, fun _ => safe_of_not_good hg hs⟩

/-- The condition on the stream before an operation: a string extraction has a width, and finds
its delimiter in the packet or runs out of width there; so does a number in text mode; a counted
read is refused or stays in the packet. -/
def Inside (memory : Memory) (s : RawStream) : Op → Prop
  | .string => s.isGood = true → s.stringWidth ≠ 0 ∧
      (s.HasDelimiter memory ∨ s.position.toNat + s.stringWidth.toNat ≤ s.length.toNat)
  | .int => s.isGood = true → s.NumberInside memory
  | .uint32 => s.isGood = true → s.NumberInside memory
  | .int32 => s.isGood = true → s.NumberInside memory
  | .extract extractLength => s.isGood = true → s.CountFits extractLength
  | .skip _ => True
  | .delimit _ => True
  | .setW _ => True
  | .binary _ => True

def StringExact (memory : Memory) (s : RawStream) (op : Op) : Prop :=
  op = .string → s.isGood = true → ∀ value s', exec memory op s = some (value, s') →
    (s'.isGood = true ↔ s.FindsDelimiter memory)

lemma toNat_sub_one {w : UInt32} (h : w ≠ 0) : (w - 1).toNat + 1 = w.toNat := by
  have hpos : 0 < w.toNat := by
    rcases Nat.eq_zero_or_pos w.toNat with hz | hpos
    · exact absurd (UInt32.toNat_inj.mp hz) h
    · exact hpos
  rw [UInt32.toNat_sub_of_le w 1 (le_iff_toNat_le.mpr hpos)]
  exact Nat.sub_add_cancel hpos

lemma inside_string_iff (hs : s.InPacket) :
    s.Inside memory .string ↔ Safe (exec memory .string) s ∧ s.StringExact memory .string := by
  have hsa : Safe (exec memory .string) s ↔ Safe (inputString memory) s :=
    safe_bind_iff fun _ => .pure _
  rw [hsa]
  by_cases hg : s.isGood = true
  · have hlen := s.length.toNat_lt
    rw [safe_inputString_iff hg hs]
    constructor
    · intro his
      obtain ⟨hw, hin⟩ := his hg
      have hr := toNat_sub_one hw
      have hi' : s.HasDelimiter memory ∨
          s.position.toNat + (s.stringWidth - 1).toNat < s.length.toNat := by
        rcases hin with hin | hin
        · exact .inl hin
        · exact .inr (by omega)
      refine ⟨hi', fun _ _ value s' he => ?_⟩
      obtain ⟨v, s1, hrun, hs1⟩ := (safe_inputString_iff hg hs).mpr hi'
      have he' : exec memory .string s = some (.bytes v, s1) := bind_run hrun _
      cases he.symm.trans he'
      rw [inputString_isGood_iff hg hs hrun hs1, hr]
      rfl
    · rintro ⟨hin, hex⟩ _
      obtain ⟨v, s1, hrun, hs1⟩ := (safe_inputString_iff hg hs).mpr hin
      have he : exec memory .string s = some (.bytes v, s1) := bind_run hrun _
      have hif := hex rfl hg _ _ he
      rw [inputString_isGood_iff hg hs hrun hs1] at hif
      by_cases hw : s.stringWidth = 0
      · -- a width of 0 leaves the loop without a bound: it stops only at the delimiter
        have hr : (s.stringWidth - 1).toNat = 2 ^ 32 - 1 := by
          rw [hw]
          rfl
        rcases hin with ⟨i, hi, hd⟩ | hin
        · obtain ⟨j, hj, _⟩ := hif.mp ⟨i, by omega, hi, hd⟩
          rw [hw] at hj
          exact absurd hj (Nat.not_lt_zero j)
        · omega
      · have hr := toNat_sub_one hw
        refine ⟨hw, ?_⟩
        rcases hin with hin | hin
        · exact .inl hin
        · exact .inr (by omega)
  · exact ⟨fun _ => ⟨safe_of_not_good hg hs, fun _ h => absurd h hg⟩, fun _ h => absurd h hg⟩

lemma stringExact_of_ne (h : op ≠ .string) : s.StringExact memory op := fun hop => absurd hop h

lemma inside_manip_iff (hs : s.InPacket) (hop : op ≠ .string) (hi : s.Inside memory op)
    (hq : Quiet (exec memory op)) :
    s.Inside memory op ↔ Safe (exec memory op) s ∧ s.StringExact memory op :=
  ⟨fun _ => ⟨hq.safe hs, stringExact_of_ne hop⟩, fun _ => hi⟩

/-- **The condition on an operation says exactly** that the operation reads only the packet and,
if it extracts a string, succeeds as it should. -/
theorem inside_iff (hs : s.InPacket) (op : Op) :
    s.Inside memory op ↔ Safe (exec memory op) s ∧ s.StringExact memory op := by
  have hn {α : Type} (ofWord : UInt32 → α) (scan : Bytes → Option α) (wrap : Option α → Value) :
      Safe (do return wrap (← inputNumber ofWord scan memory)) s ↔
        (s.isGood = true → s.NumberInside memory) :=
    (safe_bind_iff fun _ => .pure _).trans (safe_inputNumber_iff hs)
  cases op with
  | string => exact inside_string_iff hs
  | int | uint32 | int32 =>
    rw [and_iff_left (stringExact_of_ne (by simp))]
    exact (hn _ _ _).symm
  | extract n =>
    have hsa : Safe (exec memory (.extract n)) s ↔ Safe (extract memory n) s :=
      safe_bind_iff fun _ => .pure _
    rw [and_iff_left (stringExact_of_ne (by simp)), hsa]
    by_cases hg : s.isGood = true
    · rw [safe_extract_iff hg hs]
      exact ⟨fun h => h hg, fun h _ => h⟩
    · exact ⟨fun _ => safe_of_not_good hg hs, fun _ h => absurd h hg⟩
  | skip n =>
    refine inside_manip_iff hs (by simp) trivial (.bind (.modify ?_ ?_) fun _ => .pure _)
    all_goals
      intro s
      split_ifs <;> rfl
  | delimit | setW | binary =>
    exact inside_manip_iff hs (by simp) trivial
      (.bind (.modify (fun _ => rfl) fun _ => rfl) fun _ => .pure _)

def AllInside (memory : Memory) : RawStream → List Op → Prop
  | _, [] => True
  | s, op :: ops => s.Inside memory op ∧
      ∀ value s', exec memory op s = some (value, s') → AllInside memory s' ops

/-- The outcome of a sequence of operations is determined by the packet. -/
structure PacketOnly (memory : Memory) (s : RawStream) (ops : List Op) : Prop where
  /-- Every memory that holds the packet gives the same results and leaves the stream in the same
  state, and nothing outside the packet has been read. -/
  determined : ∃ values s', s'.InPacket ∧
    ∀ memory', SamePacket s.length memory memory' → execAll memory' ops s = some (values, s')
  strings : ∀ before after values s₁, ops = before ++ .string :: after →
    execAll memory before s = some (values, s₁) → s₁.StringExact memory .string

lemma determined_iff :
    (∃ values s', s'.InPacket ∧
      ∀ memory', SamePacket s.length memory memory' → execAll memory' ops s = some (values, s')) ↔
      Safe (execAll memory ops) s := by
  constructor
  · rintro ⟨values, s', hs', hs⟩
    exact ⟨values, s', hs memory fun _ _ => rfl, hs'⟩
  · rintro ⟨values, s', hrun, hs'⟩
    refine ⟨values, s', hs', fun memory' hs => ?_⟩
    have hl := ((local_execAll ops).grows memory hrun).length_eq
    exact (local_execAll ops).agrees _ _ _ _ _ hrun hs' (hl ▸ hs)

lemma packetOnly_nil (hs : s.InPacket) : PacketOnly memory s [] where
  determined := ⟨[], s, hs, fun _ _ => rfl⟩
  strings before after _ _ hops := by
    cases before <;> cases hops

lemma packetOnly_cons_iff :
    PacketOnly memory s (op :: ops) ↔ s.StringExact memory op ∧
      ∃ value s', exec memory op s = some (value, s') ∧ s'.InPacket ∧ PacketOnly memory s' ops := by
  constructor
  · rintro ⟨hd, hs⟩
    obtain ⟨values, s2, hrun, hs2⟩ := determined_iff.mp hd
    obtain ⟨value, s1, hop, hr⟩ := bind_eq_some.mp hrun
    obtain ⟨values', s2', hr, hen⟩ := bind_eq_some.mp hr
    cases hen
    have he : s.StringExact memory op := by
      rintro rfl
      exact hs [] ops [] s rfl rfl rfl
    refine ⟨he, value, s1, hop, hs2.of_grows ((local_execAll ops).grows memory hr),
      determined_iff.mpr ⟨values', s2, hr, hs2⟩, ?_⟩
    intro before after vs s' hops hb
    refine hs (op :: before) after (value :: vs) s' (by rw [hops]; rfl) ?_
    exact (bind_run hop _).trans (bind_run hb _)
  · rintro ⟨he, value, s1, hop, _, hd, hs⟩
    obtain ⟨values, s2, hrun, hs2⟩ := determined_iff.mp hd
    refine ⟨determined_iff.mpr ⟨value :: values, s2, ?_, hs2⟩, ?_⟩
    · exact (bind_run hop _).trans (bind_run hrun _)
    · intro before after vs s' hops hb
      cases before with
      | nil =>
        obtain ⟨rfl, rfl⟩ := List.cons.inj hops
        cases hb
        exact he
      | cons op' before =>
        obtain ⟨rfl, rfl⟩ := List.cons.inj hops
        obtain ⟨_, s1', hop', hr⟩ := bind_eq_some.mp hb
        cases hop.symm.trans hop'
        obtain ⟨vs', s'', hr, hen⟩ := bind_eq_some.mp hr
        cases hen
        exact hs before after vs' s' rfl hr

lemma packetOnly_iff_allInside (hs : s.InPacket) :
    PacketOnly memory s ops ↔ s.AllInside memory ops := by
  induction ops generalizing s with
  | nil => exact ⟨fun _ => trivial, fun _ => packetOnly_nil hs⟩
  | cons op ops ih =>
    rw [packetOnly_cons_iff, AllInside, inside_iff hs]
    constructor
    · rintro ⟨he, value, s1, hop, hs1, hr⟩
      refine ⟨⟨⟨value, s1, hop, hs1⟩, he⟩, fun value' s' hop' => ?_⟩
      cases hop.symm.trans hop'
      exact (ih hs1).mp hr
    · rintro ⟨⟨⟨value, s1, hop, hs1⟩, he⟩, hr⟩
      exact ⟨he, value, s1, hop, hs1, (ih hs1).mpr (hr value s1 hop)⟩

/-- **Which sequences of operations on a new stream depend only on the packet.** -/
theorem packetOnly_iff (memory : Memory) (length : UInt32) (status : Errors) (ops : List Op) :
    PacketOnly memory (ofBuffer length status) ops ↔
      (ofBuffer length status).AllInside memory ops :=
  packetOnly_iff_allInside fun _ hi => absurd hi List.not_mem_nil

/-- A packet of one character, with the byte `behind` following it in memory. -/
def oneByte (behind : UInt8) : Memory := fun i => if i = 0 then 97 else behind

/-- The byte behind a packet decides whether the string in it is taken to be terminated. -/
theorem unterminated_not_packetOnly :
    ¬ PacketOnly (oneByte 0) (ofBuffer 1 .success) [.setW 5, .string] := by
  intro h
  obtain ⟨values, s', _, hrun⟩ := h.determined
  have hs : SamePacket 1 (oneByte 0) (oneByte 98) := by
    intro i hi
    have hz : i = 0 := UInt32.toNat_inj.mp (Nat.lt_one_iff.mp (lt_iff_toNat_lt.mp hi))
    rw [hz]
    rfl
  have hn : (execAll (oneByte 0) [.setW 5, .string] (ofBuffer 1 .success)).map
      (fun p => p.2.isGood) = some true := by decide
  have ho : (execAll (oneByte 98) [.setW 5, .string] (ofBuffer 1 .success)).map
      (fun p => p.2.isGood) = some false := by decide
  rw [hrun _ fun _ _ => rfl] at hn
  rw [hrun _ hs] at ho
  exact absurd (hn.symm.trans ho) (by decide)

end RawStream

end Glomop
