import Glomop.Database.Distiller

/-!
# The head of a beacon

Whoever hears a beacon first reads the PTM's address and random id off it, `ip/port|RRRR`, and
refuses the packet if that fails or if the port is 0.  Only the former leaves an error status.
`refused_cleanly_iff`: a beacon is refused without a status exactly if it announces port 0
(`Announces`, in terms of the bytes) and the status was clean before.

The second part is about the body of an empty packet, which is `NULL`.
-/

namespace Glomop

open Lib Prog IStream List UInt32

/-- The first extractions from a beacon.
`ptmnet.cc` `PTMBeaconHandler::Handle`, `cachenet.cc` `PTMBeaconHandler::Handle`. -/
def beaconHead : ReadM (RemoteID × UInt32) := do
  delimit bar
  let rid ← inputRemoteID RemoteID.empty
  skip
  binary true
  let randomID ← inputUInt32 0
  binary false
  return (rid, randomID)

/-- The bytes begin with an address that has this port, a delimiter and four more bytes. -/
def Announces (data : Bytes) (port : Int32) : Prop :=
  ∃ ip text rest, data = ip ++ slash :: (text ++ bar :: rest) ∧
    slash ∉ ip ∧ ip.length < MAXIP ∧
    bar ∉ text ∧ text.length < numberWidth ∧ scanInt (cString text) = some port ∧
    4 ≤ rest.length

/-! ## Extractions that are accepted -/

variable {α : Type} {s : IStream}

namespace IStream

lemma Reads.good_before {s s' : IStream} (h : Reads s s') (hg : s'.isGood = true) :
    s.isGood = true := by
  rcases h.report with ⟨hs, _⟩ | ⟨hb, _, _⟩
  · rw [← hs]
    exact hg
  · exact hb

/-- If the program returns and the stream is good then, `Q` holds of the result and the stream. -/
def Accepts {α : Type} (x : ReadM α) (s : IStream) (Q : α → IStream → Prop) : Prop :=
  ∀ a s', x s = some (a, s') → s'.isGood = true → Q a s'

section Accepts

variable {α β : Type} {s : IStream} {Q : β → IStream → Prop}

lemma Accepts.step {x : ReadM α} {f : α → ReadM β} {a : α} {P : IStream → Prop}
    (hx : Returns x s a P) (hf : ∀ s1, P s1 → Accepts (f a) s1 Q) : Accepts (x >>= f) s Q := by
  obtain ⟨s1, hrun, hP⟩ := hx
  intro b s' h
  rw [bind_run hrun] at h
  exact hf s1 hP b s' h

lemma Accepts.bind {x : ReadM α} {f : α → ReadM β} {P : α → IStream → Prop}
    (hx : Accepts x s P) (hr : ∀ a, Within Reads (f a))
    (hf : ∀ a s1, P a s1 → Accepts (f a) s1 Q) : Accepts (x >>= f) s Q := by
  intro b s' h hg
  obtain ⟨a, s1, h1, h2⟩ := bind_eq_some.mp h
  exact hf a s1 (hx a s1 h1 ((hr a h2).good_before hg)) b s' h2 hg

lemma Accepts.pure {b : β} (h : Q b s) : Accepts (pure b) s Q := by
  intro b' s' hrun _
  cases hrun
  exact h

end Accepts

variable {s : IStream} {d : UInt8} {w : UInt32} {b : Bool} {r : Bytes} {st : Errors}

lemma returns_skip_end (h : s.Shows d w b [] st) : Returns skip s () (·.Shows d w b [] st) := by
  have hd : s.isDone = true := by simp [isDone, h.rest_eq]
  exact ⟨s, by simp [skip, hd], h⟩

def StopsBehind (text : Bytes) (d : UInt8) (w : UInt32) (b : Bool) (r : Bytes) (st : Errors)
    (s' : IStream) : Prop :=
  (∃ r', r = text ++ d :: r' ∧ s'.Shows d w b (d :: r') st) ∨ (r = text ∧ s'.Shows d w b [] st)

lemma accepts_inputString {size : ℕ} {old : CString size} (h : s.Shows d w b r st) :
    Accepts (inputString old) s fun t s' => ∃ (text : Bytes) (hf : text.length < size),
      t = CString.ofBytes text hf ∧ d ∉ text ∧ StopsBehind text d w b r st s' := by
  intro t s' hrun hg
  obtain ⟨hf, c, hp, rfl, rfl⟩ := inputString_inv h.good hrun
  generalize ht : copyUntil s.delimiter (s.stringWidth - 1).toNat s.rest = text at *
  rw [h.delimiter_eq, h.rest_eq] at ht
  have hc : c = s.delimiter := by
    by_contra hne
    rw [afterString, if_neg hne] at hg
    exact nomatch hg
  have hd : d ∉ text := by
    intro hmem
    rw [← ht, copyUntil_eq] at hmem
    have hb := mem_takeWhile_imp (mem_of_mem_take hmem)
    simp at hb
  obtain ⟨r', rfl⟩ : text <+: r := by
    rw [← ht, copyUntil_eq]
    exact take_prefix _ _ |>.trans <| takeWhile_prefix _
  have hs' : (s.afterString text.length c).Shows d w b r' st := by
    rw [afterString, if_pos hc]
    exact { h.advance with good := rfl }
  refine ⟨text, hf, rfl, hd, ?_⟩
  cases r' with
  | nil => exact .inr ⟨append_nil text, hs'⟩
  | cons c' r' =>
    have hr : (s.advance text.length).rest = c' :: r' := h.advance.rest_eq
    rw [peek, hr] at hp
    obtain rfl : c' = d := (Option.some.inj hp).trans (hc.trans h.delimiter_eq)
    exact .inl ⟨r', rfl, hs'⟩

variable {ofWord : UInt32 → α} {scan : Bytes → Option α} {old : α}

lemma accepts_inputNumber (h : s.Shows d w false r st) :
    Accepts (inputNumber ofWord scan old) s fun v s' => ∃ text, text.length < numberWidth ∧
      d ∉ text ∧ scan (cString text) = some v ∧ StopsBehind text d w false r st s' := by
  unfold inputNumber
  refine .step (returns_get h) fun s0 h0 => ?_
  rw [if_pos h.good, if_neg (by simp [h.mode_eq]), h.width_eq]
  refine .step (returns_setW h0 _) fun s1 h1 => ?_
  intro v s' hrun hg
  obtain ⟨t, s2, hst, hrun⟩ := bind_eq_some.mp hrun
  obtain ⟨_, s3, hse, hrun⟩ := bind_eq_some.mp hrun
  obtain rfl := modify_eq_some.mp hse
  rw [get_bind_run] at hrun
  rcases ite_eq_some.mp hrun with ⟨hg2, hrun⟩ | ⟨hb, hrun⟩
  · obtain ⟨text, hf, rfl, hd, hsp⟩ := accepts_inputString h1 t s2 hst hg2
    cases hsc : scan (cString text) with
    | none =>
      simp only [CString.ofBytes, hsc, streamReturn, run_iff] at hrun
      obtain ⟨-, rfl⟩ := hrun
      cases hg
    | some v' =>
      simp only [CString.ofBytes, hsc] at hrun
      cases hrun
      refine ⟨text, hf, hd, hsc, ?_⟩
      rcases hsp with ⟨r', hr, hs⟩ | ⟨hr, hs⟩
      · exact .inl ⟨r', hr, { hs with width_eq := rfl }⟩
      · exact .inr ⟨hr, { hs with width_eq := rfl }⟩
  · cases hrun
    exact absurd hg hb

lemma accepts_inputNumber_binary (h : s.Shows d w true r st) :
    Accepts (inputNumber ofWord scan old) s fun _ _ => 4 ≤ r.length := by
  unfold inputNumber
  refine .step (returns_get h) fun s0 h0 => ?_
  rw [if_pos h.good, if_pos h.mode_eq]
  intro v s' hrun hg
  by_contra hs
  have hgt : ofNat s0.consumed + 4 > s0.length := by
    have hlen : s0.consumed + s0.rest.length ≤ 2 ^ 31 := s0.length_le
    have hr : s0.rest.length < 4 := by
      rw [h0.rest_eq]
      omega
    have hf : (4 : UInt32).toNat = 4 := rfl
    rw [gt_iff_lt, UInt32.lt_iff_toNat_lt, length, UInt32.toNat_add, UInt32.toNat_ofNat',
      toNat_ofNat', hf]
    omega
  obtain ⟨bytes, s1, hb, hrun⟩ := bind_eq_some.mp hrun
  simp only [inputBinary, streamReturn, run_iff] at hb
  rw [if_pos h0.good, if_pos hgt] at hb
  obtain ⟨_, _, hse, hb⟩ := bind_eq_some.mp hb
  obtain rfl := modify_eq_some.mp hse
  cases hb
  cases hrun
  cases hg

end IStream

section

variable {s : IStream} {d : UInt8} {w : UInt32} {m : Bool} {r : Bytes} {st : Errors}

lemma accepts_inputRemoteID {old : RemoteID} (h : s.Shows d w m r st) :
    Accepts (inputRemoteID old) s fun rid s' => ∃ ip text, slash ∉ ip ∧ ip.length < MAXIP ∧
      d ∉ text ∧ text.length < numberWidth ∧ scanInt (cString text) = some rid.port ∧
      StopsBehind (ip ++ slash :: text) d w m r st s' := by
  unfold inputRemoteID
  refine .step (returns_get h) fun s0 h0 => ?_
  rw [h.mode_eq, h.delimiter_eq, h.width_eq]
  refine .step (returns_binary h0 false) fun s1 h1 => ?_
  refine .step (returns_delimit h1 slash) fun s2 h2 => ?_
  refine .step (returns_setW h2 _) fun s3 h3 => ?_
  refine .bind (accepts_inputString h3) (fun ipAddress => ?_) ?_
  · exact .bind reads_skip fun _ => .bind (reads_delimit _) fun _ =>
      .bind (reads_inputInt _) fun _ => .bind (reads_setW _) fun _ =>
      .bind (reads_binary _) fun _ => .pure _
  rintro ipAddress s4 ⟨ip, hip, -, hsl, hf⟩
  -- the number is read from what is behind the slash, or from nothing
  obtain ⟨r', hr, hsk⟩ : ∃ r', (r = ip ++ slash :: r' ∨ r' = []) ∧
      Returns skip s4 () (·.Shows slash (ofNat MAXIP) false r' st) := by
    rcases hf with ⟨r', rfl, h4⟩ | ⟨-, h4⟩
    · exact ⟨r', .inl rfl, returns_skip h4⟩
    · exact ⟨[], .inr rfl, returns_skip_end h4⟩
  refine .step hsk fun s5 h5 => ?_
  refine .step (returns_delimit h5 d) fun s6 h6 => ?_
  refine .bind (accepts_inputNumber h6) (fun port => ?_) ?_
  · exact .bind (reads_setW _) fun _ => .bind (reads_binary _) fun _ => .pure _
  rintro port s7 ⟨text, ht, hd, hs, hst⟩
  replace hr : r = ip ++ slash :: r' := by
    refine hr.resolve_right fun hn => ?_
    subst hn
    rcases hst with ⟨r', hr', -⟩ | ⟨rfl, -⟩
    · exact absurd hr'.symm (by simp)
    · exact nomatch hs
  subst hr
  have he (r'' : Bytes) (h7 : s7.Shows d (ofNat MAXIP) false r'' st) :
      Accepts (do setW w; binary m; return (⟨ipAddress, port⟩ : RemoteID)) s7
        fun rid s' => rid.port = port ∧ s'.Shows d w m r'' st :=
    .step (returns_setW h7 w) fun s8 h8 => .step (returns_binary h8 m) fun s9 h9 =>
      .pure ⟨rfl, h9⟩
  intro rid s' hrun hg
  rcases hst with ⟨r'', rfl, h7⟩ | ⟨rfl, h7⟩
  · obtain ⟨hp, hs'⟩ := he _ h7 rid s' hrun hg
    exact ⟨ip, text, hsl, hip, hd, ht, hp ▸ hs, .inl ⟨r'', by simp, hs'⟩⟩
  · obtain ⟨hp, hs'⟩ := he _ h7 rid s' hrun hg
    exact ⟨ip, r', hsl, hip, hd, ht, hp ▸ hs, .inr ⟨rfl, hs'⟩⟩

lemma accepts_beaconHead (h : s.Shows d w false r st) :
    Accepts beaconHead s fun a _ => Announces r a.1.port := by
  unfold beaconHead
  refine .step (returns_delimit h bar) fun s1 h1 => ?_
  refine .bind (accepts_inputRemoteID h1) (fun rid => ?_) ?_
  · exact .bind reads_skip fun _ => .bind (reads_binary _) fun _ =>
      .bind (reads_inputUInt32 _) fun _ => .bind (reads_binary _) fun _ => .pure _
  rintro rid s2 ⟨ip, text, hs, hip, hb, ht, hsc, hst⟩
  obtain ⟨r', hr, hsk⟩ : ∃ r', (r = ip ++ slash :: (text ++ bar :: r') ∨ r' = []) ∧
      Returns skip s2 () (·.Shows bar w false r' st) := by
    rcases hst with ⟨r', hr, h2⟩ | ⟨-, h2⟩
    · exact ⟨r', .inl (by simpa using hr), returns_skip h2⟩
    · exact ⟨[], .inr rfl, returns_skip_end h2⟩
  refine .step hsk fun s3 h3 => ?_
  refine .step (returns_binary h3 true) fun s4 h4 => ?_
  refine .bind (accepts_inputNumber_binary h4) (fun randomID => ?_) ?_
  · exact .bind (reads_binary _) fun _ => .pure _
  intro randomID s5 hf b s' hrun _
  replace hr : r = ip ++ slash :: (text ++ bar :: r') := by
    refine hr.resolve_right fun hn => ?_
    subst hn
    exact absurd hf (by decide)
  obtain ⟨_, s6, -, hrun⟩ := bind_eq_some.mp hrun
  cases hrun
  exact ⟨ip, text, r', hr, hs, hip, hb, ht, hsc, hf⟩

lemma returns_beaconHead {port : Int32} (h : s.Shows d w false r st) (hr : Announces r port) :
    ∃ rid randomID, rid.port = port ∧
      Returns beaconHead s (rid, randomID) fun s' => s'.isGood = true ∧ s'.status = st := by
  obtain ⟨ip, text, rest, rfl, hs, hip, hb, hte, hsc, hf⟩ := hr
  obtain ⟨t, r', rfl, ht⟩ : ∃ t r', rest = t ++ r' ∧ t.length = 4 :=
    ⟨rest.take 4, rest.drop 4, (take_append_drop 4 rest).symm, by simpa using hf⟩
  refine ⟨⟨CString.ofBytes ip hip, port⟩, ntohl t, rfl, ?_⟩
  unfold beaconHead
  refine .bind (returns_delimit h bar) fun s1 h1 => ?_
  refine .bind (returns_inputRemoteID_chars h1 hs hip hb hte hsc) fun s2 h2 => ?_
  refine .bind (returns_skip h2) fun s3 h3 => ?_
  refine .bind (returns_binary h3 true) fun s4 h4 => ?_
  have hw : Returns (inputUInt32 0) s4 (ntohl t) (·.Shows bar w true r' st) :=
    returns_inputNumber_word ht h4
  refine .bind hw fun s5 h5 => ?_
  refine .bind (returns_binary h5 false) fun s6 h6 => ?_
  exact .pure _ ⟨h6.good, h6.status_eq⟩

lemma reads_beaconHead : Within Reads beaconHead :=
  .bind (reads_delimit _) fun _ => .bind (reads_inputRemoteID _) fun _ => .bind reads_skip fun _ =>
    .bind (reads_binary _) fun _ => .bind (reads_inputUInt32 _) fun _ =>
    .bind (reads_binary _) fun _ => .pure _

/-- **Which beacons are refused without a status.**  `k` is what a handler does behind the head: it
refuses the packet if the stream is not good or the port is 0, and leaves the status as it is. -/
theorem refused_cleanly_iff {k : RemoteID × UInt32 → ReadM (Option α)}
    (hk : ∀ a s1, (∃ s', k a s1 = some (none, s') ∧ s'.status = .success) ↔
      (s1.isGood = false ∨ a.1.port = 0) ∧ s1.status = .success) (h : s.Shows d w false r st) :
    (∃ s', (beaconHead >>= k) s = some (none, s') ∧ s'.status = .success) ↔
      st = .success ∧ Announces r 0 := by
  constructor
  · rintro ⟨s', hrun, hs⟩
    obtain ⟨a, s1, hh, hrun⟩ := bind_eq_some.mp hrun
    obtain ⟨hr, hc⟩ := (hk a s1).mp ⟨s', hrun, hs⟩
    -- a stream that is not good has left its status
    have hg : s1.isGood = true := by
      by_contra hb
      have hf := (reads_beaconHead hh).isFailure h.good (by simpa using hb)
      rw [hc] at hf
      exact hf.elim nofun nofun
    have hp : a.1.port = 0 := hr.resolve_left (by simp [hg])
    refine ⟨?_, hp ▸ accepts_beaconHead h a s1 hh hg⟩
    rcases (reads_beaconHead hh).report with ⟨-, hsa⟩ | ⟨-, hb, -⟩
    · rw [← h.status_eq, ← hsa, hc]
    · exact absurd hg (by simp [hb])
  · rintro ⟨rfl, hz⟩
    obtain ⟨rid, randomID, hp, s1, hh, hg, hs⟩ := returns_beaconHead h hz
    obtain ⟨s', hrun, hc⟩ := (hk (rid, randomID) s1).mpr ⟨.inr hp, hs⟩
    exact ⟨s', bind_eq_some.mpr ⟨_, s1, hh, hrun⟩, hc⟩

end

/-! ## The body of an empty packet -/

namespace IStream

/-- A stream whose body is `NULL`, in text mode. -/
structure Null (s : IStream) : Prop where
  good : s.isGood = true
  consumed_eq : s.consumed = 0
  rest_eq : s.rest = []
  mode_eq : s.binaryMode = false

lemma null_ofPacket {p : Packet} (h : p.data = []) (past : UInt8) (status : Errors) :
    (ofPacket p past status).Null := ⟨rfl, rfl, h, rfl⟩

variable {s : IStream}

lemma Null.delimit (h : s.Null) (d : UInt8) : Null { s with delimiter := d } := { h with }

lemma Null.setW (h : s.Null) (w : UInt32) : Null { s with stringWidth := w } := { h with }

lemma Null.binary (h : s.Null) : Null { s with binaryMode := false } := { h with mode_eq := rfl }

lemma Null.inputString {size : ℕ} (h : s.Null) (hs : 0 < size) (old : CString size) :
    inputString old s = none := by
  have hc : copyUntil s.delimiter (s.stringWidth - 1).toNat s.rest = [] := by
    rw [h.rest_eq]
    cases (s.stringWidth - 1).toNat <;> rfl
  unfold IStream.inputString
  rw [get_bind_run, if_pos h.good, hc]
  simp only [length_nil, advance_zero]
  rw [dif_pos hs]
  apply bind_none
  simp [ofOption, peek, h.rest_eq, h.consumed_eq]

lemma Null.inputNumber (h : s.Null) (ofWord : UInt32 → α) (scan : Bytes → Option α) (old : α) :
    inputNumber ofWord scan old s = none := by
  unfold IStream.inputNumber
  rw [get_bind_run, if_pos h.good, if_neg (by simp [h.mode_eq])]
  rw [bind_run rfl]
  exact bind_none ((h.setW _).inputString (by decide) _) _

end IStream

lemma IStream.Null.inputRemoteID (h : s.Null) (old : RemoteID) : inputRemoteID old s = none := by
  unfold Glomop.inputRemoteID
  rw [get_bind_run, bind_run rfl, bind_run rfl, bind_run rfl]
  exact bind_none (((h.binary.delimit _).setW _).inputString (by decide) _) _

lemma IStream.Null.inputType (h : s.Null) (old : DistillerType) : inputType old s = none := by
  unfold Glomop.inputType
  rw [get_bind_run, bind_run rfl]
  exact bind_none ((h.setW _).inputString (by decide) _) _

lemma IStream.Null.inputLoad (h : s.Null) (old : Load) : inputLoad old s = none := by
  unfold Glomop.inputLoad
  rw [get_bind_run, bind_run rfl, bind_run rfl]
  exact bind_none ((h.binary.delimit _).inputNumber _ _ _) _

end Glomop
