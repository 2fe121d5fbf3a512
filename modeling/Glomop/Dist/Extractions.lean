import Glomop.Lib.Trace
import Glomop.Dist.Rpc

/-!
# Strings in a distillation call

`operator >> (char*)` stops at the delimiter, at the end of the packet, or at the width that was set
last on the stream.  The two readers of a distillation call are given here with a note of every
string extraction, and are the readers themselves when the notes are forgotten
(`erase_tracedInput`, `erase_tracedReply`).  An argument always fits its array; the MIME type fits
exactly if the packet has a NUL, or ends, in time (`fits_iff`).
-/

namespace Glomop.Rpc

open Lib Share IStream Traced UInt32 CString
open List hiding extract length

/-- A string extraction: the size of the array, and how many characters are written to it, the
terminating NUL included. -/
structure Extraction where
  size : ℕ
  written : ℕ
deriving DecidableEq

def Extraction.Fits (e : Extraction) : Prop := e.written ≤ e.size

instance (e : Extraction) : Decidable e.Fits := inferInstanceAs (Decidable (_ ≤ _))

abbrev TraceM := Traced Extraction IStream

/-- How many characters the loop of `operator >> (char*)` copies. -/
def copied (s : IStream) : ℕ := (copyUntil s.delimiter (s.stringWidth - 1).toNat s.rest).length

def tracedString {size : ℕ} (string : CString size) : TraceM (CString size) :=
  Traced.note (fun s => if s.isGood then [⟨size, copied s + 1⟩] else []) (inputString string)

section

variable {D : Type} (text : DoubleText D)

def tracedField : TraceM (Option (CString MAX_ARG_STRING)) := do
  Traced.lift (setW (UInt32.ofNat MAX_ARG_STRING))
  Traced.lift (delimit 0)
  let value ← tracedString (CString.empty MAX_ARG_STRING)
  Traced.lift skip
  let s ← Traced.lift get
  if s.isGood = false then return none else return some value

def tracedValue (argType id : UInt32) : TraceM (Option (Argument D)) := do
  if argType = 0 then
    let value ← Traced.lift (inputInt 0)
    let s ← Traced.lift get
    if s.isGood = false then return none else return some ⟨id, .typeInt value⟩
  else if argType = 1 then
    match ← tracedField with
    | none => return none
    | some value => return some ⟨id, .typeString value⟩
  else if argType = 2 then
    match ← tracedField with
    | none => return none
    | some doubleString => return some ⟨id, .typeDouble (text.scan doubleString.chars)⟩
  else Traced.lift (fail .errFormattingError)

/-- `distnet.cc` `ProxyConnection::UnmarshallDistillerInput`. -/
def tracedArgument : TraceM (Option (Argument D)) := do
  let argTypeUINT32 ← Traced.lift (inputUInt32 0)
  let id ← Traced.lift (inputUInt32 0)
  let s ← Traced.lift get
  if s.isGood = false then return none else tracedValue text argTypeUINT32 id

def tracedArguments : ℕ → TraceM (Option (List (Argument D)))
  | 0 => return some []
  | n + 1 => do
    match ← tracedArgument text with
    | none => return none
    | some arg =>
      match ← tracedArguments n with
      | none => return none
      | some args => return some (arg :: args)

def inputSized : ReadM (Option Bytes) := do
  binary true
  let length ← inputUInt32 0
  binary false
  let s ← get
  if s.isGood = false then return none else inputBlock length

def tracedData (data metadata : Bytes) : TraceM (Option DistillerData) := do
  let mimeType ← tracedString (CString.empty MAX_MIMETYPE)
  let s ← Traced.lift get
  if s.isGood = false then return none
  else if h : data.length < 2 ^ 32 ∧ metadata.length < 2 ^ 32 then
    return some (.ofBlocks data metadata mimeType h)
  else Traced.lift Prog.fault

def tracedInputHead : TraceM (Option (List (Argument D) × Bytes × Bytes)) := do
  Traced.lift (binary true)
  let numberOfArgs ← Traced.lift (inputUInt32 0)
  let s ← Traced.lift get
  if s.isGood = false then return none
  else
    match ← tracedArguments text numberOfArgs.toNat with
    | none => return none
    | some args =>
      match ← Traced.lift inputSized with
      | none => return none
      | some data =>
        match ← Traced.lift inputSized with
        | none => return none
        | some metadata => return some (args, data, metadata)

/-- `distnet.cc` `ProxyConnection::UnmarshallDistillerInput`. -/
def tracedInput : TraceM (Option (List (Argument D) × DistillerData)) := do
  match ← tracedInputHead text with
  | none => return none
  | some (args, data, metadata) =>
    match ← tracedData data metadata with
    | none => return none
    | some input => return some (args, input)

def inputStatus : ReadM (Option (UInt32 × Bytes)) := do
  binary true
  let status ← inputUInt32 0
  let length ← inputUInt32 0
  binary false
  let s ← get
  if s.isGood = false then return none
  else
    match ← inputBlock length with
    | none => return none
    | some data => return some (status, data)

def inputMetadata : ReadM (Option Bytes) := do
  binary true
  let length ← inputUInt32 0
  binary false
  inputBlock length

def tracedReplyHead : TraceM (Option (UInt32 × Bytes × Bytes)) := do
  match ← Traced.lift inputStatus with
  | none => return none
  | some (status, data) =>
    match ← Traced.lift inputMetadata with
    | none => return none
    | some metadata => return some (status, data, metadata)

/-- `cachenet.cc` `DistillerConnection::EvPacketReceived`. -/
def tracedReply : TraceM (Option DistillerReply) := do
  match ← tracedReplyHead with
  | none => return none
  | some (status, data, metadata) =>
    match ← tracedData data metadata with
    | none => return none
    | some output => return some ⟨status, output⟩

def extractions {α : Type} (x : TraceM α) (p : Packet) (past : UInt8) (status : Errors) :
    List Extraction :=
  (x (IStream.ofPacket p past status)).1

end

/-! ## Where the fields of a packet lie

These functions say which bytes lie behind a field that is complete. -/

/-- How many bytes lie before the first NUL, or before the end. -/
def run (bs : Bytes) : ℕ := (bs.takeWhile (· ≠ 0)).length

def behindWord (bs : Bytes) : Option (UInt32 × Bytes) :=
  if 4 ≤ bs.length then some (ntohl (bs.take 4), bs.drop 4) else none

def behindString (bs : Bytes) : Option Bytes :=
  if run bs < MAX_ARG_STRING ∧ run bs < bs.length then some (bs.drop (run bs + 1)) else none

def behindValue (type : UInt32) (bs : Bytes) : Option Bytes :=
  if type = 0 then (behindWord bs).map Prod.snd
  else if type = 1 ∨ type = 2 then behindString bs
  else none

def behindArgument (bs : Bytes) : Option Bytes := do
  let (type, bs) ← behindWord bs
  let (_, bs) ← behindWord bs
  behindValue type bs

def behindArguments : ℕ → Bytes → Option Bytes
  | 0, bs => some bs
  | n + 1, bs => (behindArgument bs).bind (behindArguments n)

def behindBlock (bs : Bytes) : Option Bytes := do
  let (length, bs) ← behindWord bs
  if length.toNat ≤ bs.length then some (bs.drop length.toNat) else none

/-- What lies behind the metadata of a job: its MIME type. -/
def mimeOfInput (bs : Bytes) : Option Bytes := do
  let (numberOfArgs, bs) ← behindWord bs
  ((behindArguments numberOfArgs.toNat bs).bind behindBlock).bind behindBlock

/-- What lies behind the metadata of a result: its MIME type. -/
def mimeOfOutput (bs : Bytes) : Option Bytes := do
  let (_, bs) ← behindWord bs
  (behindBlock bs).bind behindBlock

/-! ## The readers without their notes -/

variable {α : Type} {bs : Bytes} {mode : Bool} {s s₁ : IStream} {st : Errors} {w : UInt32}

section

variable {D : Type} (text : DoubleText D)

@[simp] lemma erase_tracedString {size : ℕ} (string : CString size) :
    erase (tracedString string) = inputString string := rfl

lemma erase_field (f : CString MAX_ARG_STRING → α) :
    erase (do
      match ← tracedField with
      | none => return none
      | some value => return some (f value) : TraceM (Option α)) = (do
      setW (ofNat MAX_ARG_STRING)
      delimit 0
      let value ← inputString (empty MAX_ARG_STRING)
      skip
      let s ← get
      if s.isGood = false then return none else return some (f value)) := by
  simp only [tracedField, erase_bind, erase_lift, erase_ite, erase_pure,
    erase_tracedString, bind_assoc]
  refine bind_congr fun _ => bind_congr fun _ => bind_congr fun value => bind_congr fun _ =>
    bind_congr fun s => ?_
  split_ifs
  all_goals
    rw [pure_bind]
    rfl

lemma erase_tracedArgument : erase (tracedArgument text) = inputArgument text := by
  rw [tracedArgument, inputArgument]
  simp only [erase_bind, erase_lift]
  refine bind_congr fun argType => bind_congr fun id => bind_congr fun s => ?_
  simp only [tracedValue, erase_ite]
  refine if_congr Iff.rfl rfl (if_congr Iff.rfl ?_ (if_congr Iff.rfl ?_ (if_congr Iff.rfl ?_ rfl)))
  · simp only [erase_bind, erase_lift, erase_ite, erase_pure]
  all_goals exact erase_field _

lemma erase_tracedArguments (n : ℕ) : erase (tracedArguments text n) = inputArguments text n := by
  induction n with
  | zero => rfl
  | succ n ih =>
    rw [tracedArguments, inputArguments, erase_bind, erase_tracedArgument]
    refine bind_congr fun arg => ?_
    cases arg with
    | none => rfl
    | some arg =>
      dsimp only
      rw [erase_bind, ih]
      refine bind_congr fun args => ?_
      cases args <;> rfl

lemma erase_tracedData (data metadata : Bytes) :
    erase (tracedData data metadata) = inputData data metadata := by
  rw [tracedData, inputData, erase_bind]
  refine bind_congr fun mimeType => ?_
  rw [erase_bind]
  refine bind_congr fun s => ?_
  split_ifs <;> rfl

lemma inputSized_bind (k : Option Bytes → ReadM (Option α)) (hk : k none = pure none) :
    inputSized >>= k = (do
      binary true
      let length ← inputUInt32 0
      binary false
      let s ← get
      if s.isGood = false then return none else inputBlock length >>= k) := by
  simp only [inputSized, bind_assoc]
  refine bind_congr fun _ => bind_congr fun length => bind_congr fun _ => bind_congr fun s => ?_
  split_ifs
  · rw [pure_bind, hk]
  · rfl

/-- **The noted reader of a job is the reader of a job.** -/
theorem erase_tracedInput : erase (tracedInput text) = unmarshallDistillerInput text := by
  rw [tracedInput, tracedInputHead, unmarshallDistillerInput]
  simp only [erase_bind, erase_lift, bind_assoc]
  refine bind_congr fun _ => bind_congr fun numberOfArgs => bind_congr fun s => ?_
  split_ifs
  · rfl
  rw [erase_bind, bind_assoc, erase_tracedArguments]
  refine bind_congr fun args => ?_
  cases args with
  | none => rfl
  | some args =>
    dsimp only
    rw [erase_bind, bind_assoc, erase_lift]
    refine (inputSized_bind _ ?_).trans ?_
    · rfl
    refine bind_congr fun _ => bind_congr fun length => bind_congr fun _ => bind_congr fun s => ?_
    refine if_congr Iff.rfl rfl (bind_congr fun data => ?_)
    cases data with
    | none => rfl
    | some data =>
      dsimp only
      rw [erase_bind, bind_assoc, erase_lift]
      refine (inputSized_bind _ ?_).trans ?_
      · rfl
      refine bind_congr fun _ => bind_congr fun length => bind_congr fun _ =>
        bind_congr fun s => ?_
      refine if_congr Iff.rfl rfl (bind_congr fun metadata => ?_)
      cases metadata with
      | none => rfl
      | some metadata =>
        dsimp only
        rw [erase_pure, pure_bind, erase_bind, erase_tracedData]
        refine bind_congr fun input => ?_
        cases input <;> rfl

end

/-- **The noted reader of a result is the reader of a result.** -/
theorem erase_tracedReply : erase tracedReply = inputReply := by
  rw [tracedReply, tracedReplyHead, inputReply]
  simp only [inputStatus, erase_bind, erase_lift, bind_assoc]
  refine bind_congr fun _ => bind_congr fun status => bind_congr fun length => bind_congr fun _ =>
    bind_congr fun s => ?_
  split_ifs
  · rfl
  rw [bind_assoc]
  refine bind_congr fun data => ?_
  cases data with
  | none => rfl
  | some data =>
    dsimp only
    rw [pure_bind]
    dsimp only
    rw [erase_bind, bind_assoc, erase_lift, inputMetadata]
    simp only [bind_assoc]
    refine bind_congr fun _ => bind_congr fun length => bind_congr fun _ =>
      bind_congr fun metadata => ?_
    cases metadata with
    | none => rfl
    | some metadata =>
      dsimp only
      rw [erase_pure, pure_bind, erase_bind, erase_tracedData]
      refine bind_congr fun output => ?_
      cases output <;> rfl

/-! ## Streams at a field -/

/-- The stream is good, its delimiter is NUL, and `bs` lies behind its cursor; its width is that of
an argument, or is more than what is left. -/
def At (mode : Bool) (bs : Bytes) (s : IStream) : Prop :=
  ∃ w st, s.Shows 0 w mode bs st ∧ (bs.length < w.toNat ∨ w = UInt32.ofNat MAX_ARG_STRING)

section

variable {s : IStream} {mode : Bool} {bs rest : Bytes} {n : UInt32}

lemma behindWord_eq_some (h : behindWord bs = some (n, rest)) :
    ∃ t, t.length = 4 ∧ bs = t ++ rest ∧ n = ntohl t := by
  unfold behindWord at h
  split_ifs at h with hlen
  cases h
  exact ⟨bs.take 4, length_take_of_le hlen, (take_append_drop 4 bs).symm, rfl⟩

lemma behindWord_eq_none (h : behindWord bs = none) : bs.length < 4 := by
  unfold behindWord at h
  split_ifs at h with hlen
  omega

lemma At.isGood (h : At mode bs s) : s.isGood = true := by
  obtain ⟨w, st, hs, _⟩ := h
  exact hs.good

def TakesWord {α : Type} (ofWord : UInt32 → α) (x : ReadM α) (old : α) (bs : Bytes)
    (s : IStream) : Prop :=
  (behindWord bs = none ∧ ∃ s₁, x s = some (old, s₁) ∧ s₁.isGood = false) ∨
    ∃ n rest s₁, behindWord bs = some (n, rest) ∧ x s = some (ofWord n, s₁) ∧ At true rest s₁

lemma noWord (ofWord : UInt32 → α) (scan : Bytes → Option α) (old : α)
    (hs : s.Shows 0 w true bs st) (hw : behindWord bs = none) :
    ∃ s', inputNumber ofWord scan old s = some (old, s') ∧ s'.isGood = false := by
  have hsh : s.rest.length < 4 := by
    rw [hs.rest_eq]
    exact behindWord_eq_none hw
  have hlen : s.consumed + s.rest.length ≤ 2 ^ 31 := s.length_le
  have hm : ofNat s.consumed + 4 > s.length := by
    change ofNat s.consumed + ofNat 4 > s.length
    rw [gt_iff_lt, lt_iff_toNat_lt, length, UInt32.toNat_add, toNat_ofNat',
      toNat_ofNat', toNat_ofNat']
    omega
  refine ⟨{ s with isGood := false, status := .errFormattingError }, ?_, rfl⟩
  have hb : inputBinary 4 s =
      some (none, { s with isGood := false, status := .errFormattingError }) := by
    unfold inputBinary
    rw [Prog.get_bind_run, if_pos hs.good, if_pos hm]
    rfl
  unfold inputNumber
  rw [Prog.get_bind_run, if_pos hs.good, if_pos hs.mode_eq, Prog.bind_run hb]
  rfl

lemma takesWord (ofWord : UInt32 → α) (scan : Bytes → Option α) (old : α)
    (hs : s.Shows 0 w true bs st) (hr : bs.length ≤ w.toNat ∨ w = ofNat MAX_ARG_STRING) :
    TakesWord ofWord (inputNumber ofWord scan old) old bs s := by
  cases hw : behindWord bs with
  | none => exact .inl ⟨hw, noWord ofWord scan old hs hw⟩
  | some word =>
    obtain ⟨n, rest⟩ := word
    obtain ⟨t, ht, rfl, rfl⟩ := behindWord_eq_some hw
    obtain ⟨s₁, hs1, h1⟩ := returns_inputNumber_word ht hs
    refine .inr ⟨_, rest, s₁, hw, hs1, w, st, h1, hr.imp_left fun hle => ?_⟩
    rw [length_append] at hle
    omega

lemma At.takesWord (ofWord : UInt32 → α) (scan : Bytes → Option α) (old : α) (h : At true bs s) :
    TakesWord ofWord (inputNumber ofWord scan old) old bs s := by
  obtain ⟨w, st, hs, hr⟩ := h
  exact Rpc.takesWord ofWord scan old hs (hr.imp_left Nat.le_of_lt)

lemma At.takesUInt32 (h : At true bs s) : TakesWord id (inputUInt32 0) 0 bs s :=
  h.takesWord id scanUInt32 0

lemma inputNumber_of_bad (ofWord : UInt32 → α) (scan : Bytes → Option α) (old : α)
    (h : s.isGood = false) : inputNumber ofWord scan old s = some (old, s) := by
  unfold inputNumber
  rw [Prog.get_bind_run, if_neg (by simp [h])]
  rfl

lemma At.binary (h : At mode bs s) (flag : Bool) :
    Prog.Returns (binary flag) s () (At flag bs) := by
  obtain ⟨w, st, hs, hr⟩ := h
  exact (returns_binary hs flag).mono fun s₁ h1 => ⟨w, st, h1, hr⟩

lemma At.block (h : At mode bs s) (hn : n.toNat ≤ bs.length) :
    Prog.Returns (inputBlock n) s (some (bs.take n.toNat)) (At mode (bs.drop n.toNat)) := by
  obtain ⟨w, st, hs, hro⟩ := h
  unfold inputBlock
  split_ifs with hpos
  · have hsp : s.Shows 0 w mode (bs.take n.toNat ++ bs.drop n.toNat) st := by
      rw [take_append_drop]
      exact hs
    have hr := returns_extract hsp
    rw [length_take_of_le hn, UInt32.ofNat_toNat] at hr
    refine hr.bind fun s₁ h1 => ?_
    refine .bind (returns_get h1) fun s2 h2 => ?_
    rw [if_neg (by simp [h1.good])]
    refine Prog.Returns.pure _ ⟨w, st, h2, hro.imp_left fun hlt => ?_⟩
    rw [length_drop]
    omega
  · have hz : n.toNat = 0 := by
      rw [gt_iff_lt, lt_iff_toNat_lt] at hpos
      simpa using hpos
    rw [hz, take_zero, drop_zero]
    exact .pure _ ⟨w, st, hs, hro⟩

lemma At.noBlock (h : At mode bs s) (hn : bs.length < n.toNat) {block : Bytes} {s' : IStream} :
    inputBlock n s ≠ some (some block, s') := by
  obtain ⟨w, st, hs, _⟩ := h
  intro hb
  have hpos : n > 0 := by
    rw [gt_iff_lt, lt_iff_toNat_lt]
    exact Nat.zero_lt_of_lt hn
  have hsh : ¬ n.toNat ≤ s.rest.length := by
    rw [hs.rest_eq]
    omega
  unfold inputBlock at hb
  rw [if_pos hpos] at hb
  obtain ⟨extracted, s₁, he, hb⟩ := Prog.bind_eq_some.mp hb
  unfold extract at he
  rw [Prog.get_bind_run, if_pos hs.good, if_neg hsh] at he
  simp only [streamReturn, Prog.ite_eq_some, Prog.fault_eq_some, and_false, or_false, Prog.run_iff]
    at he
  obtain ⟨_, _, _, rfl, rfl, rfl⟩ := he
  simp [Prog.get_bind_run] at hb

end

/-! ## Going from field to field -/

/-- All the extractions of a reader fit, and it goes on where the packet has `next` left, or nowhere
but at the end of the packet. -/
structure Goes {α : Type} (P : Bytes → IStream → Prop) (x : TraceM (Option α))
    (next : Option Bytes) (s : IStream) : Prop where
  fits : ∀ e ∈ (x s).1, e.Fits
  on : ∀ bs, next = some bs → ∃ a s', (x s).2 = some (some a, s') ∧ P bs s'
  off : next = none → ∀ a s', (x s).2 = some (some a, s') → P [] s'

namespace Goes

variable {α β : Type} {P Q : Bytes → IStream → Prop} {x : TraceM (Option α)}
  {k : Option α → TraceM (Option β)} {next : Option Bytes} {g : Bytes → Option Bytes} {s : IStream}

lemma pure (a : α) (h : P bs s) : Goes P (pure (some a)) (some bs) s where
  fits e he := by cases he
  on bs' hbs := by
    cases hbs
    exact ⟨a, s, rfl, h⟩
  off hn := by cases hn

lemma of_eq {y : TraceM (Option α)} (h : x s = y s₁) (hy : Goes P y next s₁) : Goes P x next s where
  fits := h ▸ hy.fits
  on := h ▸ hy.on
  off := h ▸ hy.off

lemma of_none : Goes P (Pure.pure none : TraceM (Option α)) none s where
  fits e he := by cases he
  on bs hbs := by cases hbs
  off _ a s₁ hs := by cases hs

lemma lift_bind {y : ReadM β} {f : β → TraceM (Option α)} {b : β} (hy : y s = some (b, s₁))
    (h : Goes P (f b) next s₁) : Goes P (lift y >>= f) next s :=
  .of_eq (lift_bind_run hy f) h

lemma check_bad (h : s.isGood = false) : Goes P (do
    let s ← lift get
    if s.isGood = false then return none else x) none s := by
  refine lift_bind rfl ?_
  rw [if_pos h]
  exact of_none

lemma check (h : s.isGood = true) (hx : Goes P x next s) : Goes P (do
    let s ← lift get
    if s.isGood = false then return none else x) next s := by
  refine lift_bind rfl ?_
  rw [if_neg (by simp [h])]
  exact hx

/-- **The rule for a word**: what lies behind the fields that follow is looked for behind it. -/
theorem word {x : ReadM β} {f : β → TraceM (Option α)} {ofWord : UInt32 → β} {old : β}
    {next : UInt32 × Bytes → Option Bytes} (h : TakesWord ofWord x old bs s)
    (hb : ∀ s₁, s₁.isGood = false → Goes P (f old) none s₁)
    (hf : ∀ n rest s₁, At true rest s₁ → Goes P (f (ofWord n)) (next (n, rest)) s₁) :
    Goes P (lift x >>= f) ((behindWord bs).bind next) s := by
  rcases h with ⟨hw, s₁, hs1, hg⟩ | ⟨n, rest, s₁, hw, hs1, h1⟩
  · rw [hw]
    exact lift_bind hs1 (hb s₁ hg)
  · rw [hw]
    exact lift_bind hs1 (hf n rest s₁ h1)

section

variable (hx : Goes P x next s)

include hx

lemma mono (hPQ : ∀ bs s', P bs s' → Q bs s') : Goes Q x next s where
  fits := hx.fits
  on bs hbs := by
    obtain ⟨a, s', hs, hP⟩ := hx.on bs hbs
    exact ⟨a, s', hs, hPQ bs s' hP⟩
  off hn a s' hs := hPQ [] s' (hx.off hn a s' hs)

lemma stands {a : α} (h : (x s).2 = some (some a, s₁)) :
    ∃ bs, P bs s₁ ∧ (next = some bs ∨ next = none ∧ bs = []) := by
  cases hn : next with
  | none => exact ⟨[], hx.off hn a s₁ h, .inr ⟨rfl, rfl⟩⟩
  | some bs =>
    obtain ⟨a', s', hs, hP⟩ := hx.on bs hn
    rw [h] at hs
    cases hs
    exact ⟨bs, hP, .inl rfl⟩

/-- **The sequencing rule**: what lies behind two fields is what lies behind the second where the
first leaves off. -/
theorem bind (hk : k none = return none) (hf : ∀ a bs s₁, P bs s₁ → Goes Q (k (some a)) (g bs) s₁)
    (hg : ∀ bs, g [] = some bs → bs = []) : Goes Q (x >>= k) (next.bind g) s := by
  by_cases hr : ∃ a s₁, (x s).2 = some (some a, s₁)
  · obtain ⟨a, s₁, hr⟩ := hr
    obtain ⟨bs1, hP, hn⟩ := hx.stands hr
    have hgo := hf a bs1 s₁ hP
    have hrun := bind_run hr k
    refine ⟨?_, ?_, ?_⟩
    · intro e he
      rw [hrun] at he
      rcases mem_append.mp he with he | he
      · exact hx.fits e he
      · exact hgo.fits e he
    · intro bs hbs
      rw [hrun]
      rcases hn with hn | ⟨hn, _⟩
      · rw [hn] at hbs
        exact hgo.on bs hbs
      · rw [hn] at hbs
        cases hbs
    · intro hno b s' hs
      rw [hrun] at hs
      cases hgb : g bs1 with
      | none => exact hgo.off hgb b s' hs
      | some bs =>
        rcases hn with hn | ⟨_, rfl⟩
        · rw [hn, Option.bind_some, hgb] at hno
          cases hno
        · -- nothing is left behind nothing
          obtain rfl := hg bs hgb
          obtain ⟨b', s'', hs', hQ⟩ := hgo.on [] hgb
          cases hs'.symm.trans hs
          exact hQ
  · have hrun : ((x >>= k) s).1 = (x s).1 ∧ ∀ b s', ((x >>= k) s).2 ≠ some (some b, s') := by
      cases hx' : (x s).2 with
      | none =>
        rw [bind_none hx']
        exact ⟨rfl, fun b s' hs => by cases hs⟩
      | some result =>
        obtain ⟨_ | a, s₁⟩ := result
        · rw [bind_run hx', hk]
          exact ⟨append_nil _, fun b s' hs => by cases hs⟩
        · exact (hr ⟨a, s₁, hx'⟩).elim
    refine ⟨?_, ?_, ?_⟩
    · rw [hrun.1]
      exact hx.fits
    · intro bs hbs
      obtain ⟨bs1, hn, _⟩ := Option.bind_eq_some_iff.mp hbs
      obtain ⟨a, s', hs, _⟩ := hx.on bs1 hn
      exact (hr ⟨a, s', hs⟩).elim
    · intro _ b s' hs
      exact (hrun.2 b s' hs).elim

lemma map (hk : k none = return none)
    (hf : ∀ a, ∃ b, k (some a) = return some b) : Goes P (x >>= k) next s := by
  rw [← Option.bind_fun_some next]
  refine hx.bind hk (fun a bs s₁ h => ?_) (by simp)
  obtain ⟨b, hb⟩ := hf a
  rw [hb]
  exact .pure b h

end

end Goes

lemma length_copyUntil (d : UInt8) (room : ℕ) (cs : Bytes) :
    (copyUntil d room cs).length = min room (cs.takeWhile (· ≠ d)).length := by
  rw [copyUntil_eq, length_take]

lemma run_cons {c : UInt8} (hc : c ≠ 0) (cs : Bytes) : run (c :: cs) = run cs + 1 := by
  have ht : (c :: cs).takeWhile (· ≠ 0) = c :: cs.takeWhile (· ≠ 0) :=
    takeWhile_cons_of_pos (by simpa using hc)
  rw [run, ht, length_cons, run]

lemma run_append_le (t r : Bytes) : run (t ++ 0 :: r) ≤ t.length := by
  induction t with
  | nil => simp [run]
  | cons c t ih =>
    by_cases hc : c = 0
    · simp [run, hc]
    · rw [cons_append, run_cons hc, length_cons]
      omega

lemma run_split (h : run bs < bs.length) :
    ∃ t, 0 ∉ t ∧ t.length = run bs ∧ bs = t ++ 0 :: bs.drop (run bs + 1) := by
  induction bs with
  | nil => simp at h
  | cons c cs ih =>
    by_cases hc : c = 0
    · exact ⟨[], by simp, by simp [run, hc], by simp [run, hc]⟩
    · rw [run_cons hc, length_cons] at h
      obtain ⟨t, ht, hl, hs⟩ := ih (by omega)
      refine ⟨c :: t, ?_, ?_, ?_⟩
      · rw [mem_cons, not_or]
        exact ⟨Ne.symm hc, ht⟩
      · rw [run_cons hc, length_cons, hl]
      · rw [run_cons hc, cons_append, drop_succ_cons]
        exact congrArg (c :: ·) hs

lemma field_off {s' : IStream} {old v : CString MAX_ARG_STRING}
    (hw : w = ofNat MAX_ARG_STRING) (h : s.Shows 0 w true bs st)
    (hn : behindString bs = none) (hrun : inputString old s = some (v, s'))
    (hg : s'.isGood = true) : s'.Shows 0 w true [] st := by
  obtain ⟨hf, c, hp, _, rfl⟩ := inputString_inv h.good hrun
  have hro : (s.stringWidth - 1).toNat = 79 := by
    rw [h.width_eq, hw]
    decide
  rw [h.delimiter_eq, hro, h.rest_eq] at hp hg ⊢
  have hl := length_copyUntil 0 79 bs
  generalize (copyUntil 0 79 bs).length = n at hp hg hl ⊢
  unfold afterString at hg ⊢
  rw [h.delimiter_eq] at hg ⊢
  split_ifs at hg ⊢ with hc
  have hr : (s.advance n).rest = bs.drop n := by
    rw [← h.rest_eq]
    rfl
  have he : bs.drop n = [] := by
    cases hd : bs.drop n with
    | nil => rfl
    | cons c' r =>
      -- the byte behind the characters is a NUL of the packet, which ends the string in time
      rw [peek, hr, hd] at hp
      cases hp
      have hlt : n < bs.length := by
        have hco := congrArg List.length hd
        rw [length_drop, length_cons] at hco
        omega
      have hle := run_append_le (bs.take n) r
      rw [← hc, ← hd, take_append_drop, length_take] at hle
      have hm : n = min 79 (run bs) := hl
      rw [behindString, if_pos ⟨show run bs < 80 by omega, by omega⟩] at hn
      cases hn
  exact ⟨rfl, h.delimiter_eq, h.width_eq, h.mode_eq, hr.trans he, h.status_eq⟩

lemma goes_tracedField (h : At true bs s) : Goes (At true) tracedField (behindString bs) s := by
  obtain ⟨_, st, hsh, _⟩ := h
  let s₁ : IStream := { s with stringWidth := ofNat MAX_ARG_STRING }
  let s2 : IStream := { s₁ with delimiter := 0 }
  have h2 : s2.Shows 0 (ofNat MAX_ARG_STRING) true bs st :=
    { hsh with delimiter_eq := rfl, width_eq := rfl }
  refine .lift_bind (show _ = some ((), s₁) from rfl)
    (.lift_bind (show _ = some ((), s2) from rfl) ⟨?_, ?_, ?_⟩)
  · refine forall_bind ?_ fun value s3 _ => ?_
    · intro e he
      have hro : (ofNat MAX_ARG_STRING - 1).toNat = 79 := by decide
      have hc : copied s2 ≤ 79 := by
        rw [copied, length_copyUntil]
        exact (min_le_left _ _).trans_eq hro
      obtain rfl : e = ⟨MAX_ARG_STRING, copied s2 + 1⟩ := by
        simpa [tracedString, note, h2.good] using he
      exact Nat.succ_le_succ hc
    · refine forall_bind (forall_lift _ _) fun _ s4 _ => ?_
      refine forall_bind (forall_lift _ _) fun s5 _ _ => ?_
      split_ifs
      all_goals rintro _ ⟨⟩
  · intro rest hr
    unfold behindString at hr
    split_ifs at hr with hen
    cases hr
    obtain ⟨t, ht, hl, hsp⟩ := run_split hen.2
    rw [hsp] at h2
    have hsi : t.length < MAX_ARG_STRING := hl ▸ hen.1
    obtain ⟨s3, hs, h3⟩ :=
      @returns_inputString_chars s2 0 _ true _ st MAX_ARG_STRING t (empty _) h2 ht hsi hsi
    obtain ⟨s4, hsk, h4⟩ := returns_skip h3
    refine ⟨ofBytes t hsi, s4, ?_, _, st, h4, .inr rfl⟩
    have hn : (tracedString (empty MAX_ARG_STRING) s2).2 = some (ofBytes t hsi, s3) := hs
    rw [bind_run hn, lift_bind_run hsk, get_bind_run, if_neg (by simp [h4.good])]
    rfl
  · intro hno value s' hso
    rw [← erase_run] at hso
    simp only [erase_bind, erase_tracedString, erase_lift, erase_ite, erase_pure, skip,
      Prog.ite_eq_some, Prog.run_iff] at hso
    obtain ⟨v, s3, hs, ⟨_, hv, _⟩ | ⟨hg, _, rfl⟩⟩ := hso
    · cases hv
    -- a skip at the end of the packet does nothing
    have hg3 : s3.isGood = true := by
      rw [Bool.not_eq_false] at hg
      split_ifs at hg
      · exact hg
      · exact hg
    have h3 := field_off rfl h2 hno hs hg3
    have hd : s3.isDone = true := by simp [isDone, h3.rest_eq]
    rw [if_pos hd]
    exact ⟨_, st, h3, .inr rfl⟩

section

variable {D : Type} (text : DoubleText D)

lemma goes_field (h : At true bs s) (f : CString MAX_ARG_STRING → α) :
    Goes (At true) (do
      match ← tracedField with
      | none => return none
      | some value => return some (f value)) (behindString bs) s :=
  (goes_tracedField h).map rfl fun _ => ⟨_, rfl⟩

lemma goes_tracedValue (h : At true bs s) (type name : UInt32) :
    Goes (At true) (tracedValue text type name) (behindValue type bs) s := by
  unfold behindValue tracedValue
  by_cases hint : type = 0
  · rw [if_pos hint, if_pos hint]
    rw [Option.map_eq_bind]
    refine .word (h.takesWord toInt32 scanInt 0) (fun s₁ hb => .check_bad hb) ?_
    exact fun value bs1 s₁ h1 => .check h1.isGood (.pure _ h1)
  rw [if_neg hint, if_neg hint]
  by_cases hs : type = 1
  · rw [if_pos hs, if_pos (.inl hs)]
    exact goes_field h _
  by_cases hd : type = 2
  · rw [if_neg hs, if_pos hd, if_pos (.inr hd)]
    exact goes_field h _
  · rw [if_neg hs, if_neg hd, if_neg (not_or.mpr ⟨hs, hd⟩)]
    exact .of_eq (show _ = (pure none : TraceM _) { s with status := .errFormattingError } from rfl)
      .of_none

lemma goes_tracedArgument (h : At true bs s) :
    Goes (At true) (tracedArgument text) (behindArgument bs) s := by
  refine .word h.takesUInt32 (fun s₁ hb => ?_) fun type bs1 s₁ h1 => ?_
  · -- neither word is there
    exact .lift_bind (inputNumber_of_bad id scanUInt32 0 hb) (.check_bad hb)
  · refine .word h1.takesUInt32 (fun s2 hb => .check_bad hb) fun name bs2 s2 h2 => ?_
    exact .check h2.isGood (goes_tracedValue text h2 type name)

lemma behindArguments_nil (n : ℕ) (h : behindArguments n [] = some bs) : bs = [] := by
  cases n with
  | zero => exact (Option.some.inj h).symm
  | succ n => cases h

/-- **The arguments fit, and are read off one by one.** -/
theorem goes_tracedArguments (n : ℕ) (h : At true bs s) :
    Goes (At true) (tracedArguments text n) (behindArguments n bs) s := by
  induction n generalizing s bs with
  | zero => exact .pure [] h
  | succ n ih =>
    rw [tracedArguments, behindArguments]
    refine (goes_tracedArgument text h).bind rfl (fun arg bs1 s₁ h1 => ?_)
      fun _ => behindArguments_nil n
    exact (ih h1).map rfl fun _ => ⟨_, rfl⟩

end

/-! ## Blocks -/

lemma behindBlock_nil (h : behindBlock [] = some bs) : bs = [] := by cases h

lemma goes_lift {P : Bytes → IStream → Prop} {x : ReadM (Option α)} {next : Option Bytes}
    (hon : ∀ bs, next = some bs → ∃ a s', x s = some (some a, s') ∧ P bs s')
    (ho : next = none → ∀ a s', x s = some (some a, s') → P [] s') :
    Goes P (lift x) next s :=
  ⟨fun _ he => (by cases he), hon, ho⟩

lemma goes_inputBlock (h : At mode bs s) (length : UInt32) :
    Goes (At mode) (lift (inputBlock length))
      (if length.toNat ≤ bs.length then some (bs.drop length.toNat) else none) s := by
  split_ifs with hl
  · refine goes_lift (fun rest hr => ?_) nofun
    cases hr
    obtain ⟨s₁, hs1, h1⟩ := h.block hl
    exact ⟨_, s₁, hs1, h1⟩
  · refine goes_lift nofun fun _ block s₁ hs => ?_
    exact (h.noBlock (by omega) hs).elim

lemma goes_inputSized (h : At mode bs s) :
    Goes (At false) (lift inputSized) (behindBlock bs) s := by
  obtain ⟨s₁, hs1, h1⟩ := h.binary true
  simp only [inputSized, lift_bind, lift_ite, lift_pure]
  refine .lift_bind hs1 (.word h1.takesUInt32 (fun s2 hb => ?_) fun length bs1 s2 h2 => ?_)
  · exact .lift_bind rfl (.check_bad hb)
  · obtain ⟨s3, hs3, h3⟩ := h2.binary false
    exact .lift_bind hs3 (.check h3.isGood (goes_inputBlock h3 length))

def AtMime (bs : Bytes) (s : IStream) : Prop := At false bs s ∨ bs = [] ∧ s.isGood = false

lemma goes_inputMetadata (h : At mode bs s) :
    Goes AtMime (lift inputMetadata) (behindBlock bs) s := by
  obtain ⟨s₁, hs1, h1⟩ := h.binary true
  simp only [inputMetadata, lift_bind]
  refine .lift_bind hs1 (.word h1.takesUInt32 (fun s2 hb => ?_) fun length bs1 s2 h2 => ?_)
  · -- the length stays zero
    refine .lift_bind rfl (goes_lift nofun fun _ block s4 hs => ?_)
    cases hs
    exact .inr ⟨rfl, hb⟩
  · obtain ⟨s3, hs3, h3⟩ := h2.binary false
    exact .lift_bind hs3 ((goes_inputBlock h3 length).mono fun _ _ h => .inl h)

/-! ## What comes before the MIME type -/

section

variable (p : Packet) (past : UInt8) (status : Errors)

lemma takesFirstWord : TakesWord id (inputUInt32 0) 0 p.data
    { ofPacket p past status with binaryMode := true } := by
  have hl : p.getLength.toNat = p.data.length := by
    have hle : p.data.length ≤ 2 ^ 31 := p.length_le
    rw [Packet.getLength, toNat_ofNat']
    omega
  exact takesWord id scanUInt32 0 ⟨rfl, rfl, rfl, rfl, rfl, rfl⟩ (.inl hl.ge)

lemma goes_tracedInputHead {D : Type} (text : DoubleText D) :
    Goes AtMime (tracedInputHead text) (mimeOfInput p.data) (ofPacket p past status) := by
  refine .lift_bind rfl (.word (takesFirstWord p past status) (fun s₁ hb => ?_)
    fun n bs s₁ h1 => .check h1.isGood ?_)
  · exact .check_bad hb
  show Goes AtMime _ (((behindArguments n.toNat bs).bind behindBlock).bind behindBlock) s₁
  rw [Option.bind_assoc]
  refine (goes_tracedArguments text n.toNat h1).bind rfl (fun args bs s h => ?_) nofun
  refine (goes_inputSized h).bind rfl (fun data bs s h => ?_) fun _ => behindBlock_nil
  exact ((goes_inputSized h).mono fun _ _ h => .inl h).map rfl fun _ => ⟨_, rfl⟩

lemma goes_inputStatus :
    Goes (At false) (lift inputStatus) ((behindWord p.data).bind fun w => behindBlock w.2)
      (ofPacket p past status) := by
  simp only [inputStatus, lift_bind, lift_ite, lift_pure]
  refine .lift_bind rfl (.word (takesFirstWord p past status) (fun s₁ hb => ?_)
    fun code bs s₁ h1 => ?_)
  · exact .lift_bind (inputNumber_of_bad id scanUInt32 0 hb) (.lift_bind rfl (.check_bad hb))
  refine .word h1.takesUInt32 (fun s2 hb => ?_) fun length bs1 s2 h2 => ?_
  · exact .lift_bind rfl (.check_bad hb)
  obtain ⟨s3, hs3, h3⟩ := h2.binary false
  exact .lift_bind hs3 (.check h3.isGood ((goes_inputBlock h3 length).map rfl fun _ => ⟨_, rfl⟩))

lemma goes_tracedReplyHead :
    Goes AtMime tracedReplyHead (mimeOfOutput p.data) (ofPacket p past status) := by
  have hm : mimeOfOutput p.data =
      ((behindWord p.data).bind fun w => behindBlock w.2).bind behindBlock := by
    rw [Option.bind_assoc]
    rfl
  rw [hm]
  refine (goes_inputStatus p past status).bind rfl (fun head bs s h => ?_) fun _ => behindBlock_nil
  exact (goes_inputMetadata h).map rfl fun _ => ⟨_, rfl⟩

end

/-! ## The MIME type -/

lemma fits_tracedData_iff (h : AtMime bs s) (data metadata : Bytes) :
    (∀ e ∈ (tracedData data metadata s).1, e.Fits) ↔ run bs < MAX_MIMETYPE := by
  have hr (hm : ∀ e ∈ (tracedString (empty MAX_MIMETYPE) s).1, e.Fits) :
      ∀ e ∈ (tracedData data metadata s).1, e.Fits := by
    refine forall_bind hm fun mimeType s₁ _ => forall_bind (forall_lift _ _) fun s2 s3 _ => ?_
    split_ifs
    · exact nofun
    · exact nofun
    · exact forall_lift _ _
  rcases h with ⟨w, st, hs, hro⟩ | ⟨rfl, hb⟩
  · have hn : (tracedString (empty MAX_MIMETYPE) s).1 = [⟨MAX_MIMETYPE, copied s + 1⟩] := by
      simp [tracedString, note, hs.good]
    -- the width allows as many characters as there are, or more than fit
    have hc : copied s < MAX_MIMETYPE ↔ run bs < MAX_MIMETYPE := by
      have hl : copied s = min (w - 1).toNat (run bs) := by
        rw [copied, hs.delimiter_eq, hs.width_eq, hs.rest_eq, length_copyUntil, run]
      rcases hro with hlt | rfl
      · have hle : run bs ≤ bs.length := (takeWhile_sublist _).length_le
        have hw : (w - 1).toNat = w.toNat - 1 :=
          UInt32.toNat_sub_of_le w 1 (UInt32.le_iff_toNat_le.mpr (by simp; omega))
        rw [hl, hw]
        omega
      · have hw : (ofNat MAX_ARG_STRING - 1).toNat = 79 := by decide
        rw [hl, hw]
        change min 79 (run bs) < 50 ↔ run bs < 50
        omega
    rw [← hc]
    constructor
    · intro hf
      have hmem : (⟨MAX_MIMETYPE, copied s + 1⟩ : Extraction) ∈ (tracedData data metadata s).1 :=
        mem_bind _ (hn ▸ mem_singleton_self _)
      exact hf _ hmem
    · intro hlt
      apply hr
      rw [hn]
      intro e he
      rw [mem_singleton.mp he]
      exact hlt
  · refine iff_of_true (hr ?_) (by decide)
    simp [tracedString, note, hb]

lemma Goes.fits_bind_iff {β : Type} {x : TraceM (Option α)} {k : Option α → TraceM (Option β)}
    {next : Option Bytes} (hx : Goes AtMime x next s) (hk : k none = return none)
    (hf : ∀ a bs s₁, AtMime bs s₁ → ((∀ e ∈ (k (some a) s₁).1, e.Fits) ↔ run bs < MAX_MIMETYPE)) :
    (∀ e ∈ ((x >>= k) s).1, e.Fits) ↔ ∀ mime, next = some mime → run mime < MAX_MIMETYPE := by
  constructor
  · intro hfi mime hm
    obtain ⟨a, s₁, hr, hat⟩ := hx.on mime hm
    refine (hf a mime s₁ hat).mp fun e he => hfi e ?_
    rw [bind_run hr]
    exact mem_append_right _ he
  · intro hm
    refine forall_bind hx.fits fun result s₁ hr => ?_
    cases result with
    | none =>
      rw [hk]
      exact nofun
    | some a =>
      obtain ⟨bs, hat, hn⟩ := hx.stands hr
      refine (hf a bs s₁ hat).mpr ?_
      rcases hn with hn | ⟨_, rfl⟩
      · exact hm bs hn
      · decide

lemma forall_fits_bind {β : Type} {x : TraceM (Option α)} (k : Option α → TraceM (Option β))
    (hn : ∀ s₁, (k none s₁).1 = []) (hs : ∀ a s₁, (k (some a) s₁).1 = []) :
    (∀ e ∈ ((x >>= k) s).1, e.Fits) ↔ ∀ e ∈ (x s).1, e.Fits := by
  constructor
  · exact fun h e he => h e (mem_bind k he)
  · intro h
    refine forall_bind h fun result s₁ _ => ?_
    cases result with
    | none =>
      rw [hn]
      exact nofun
    | some a =>
      rw [hs]
      exact nofun

/-- **The strings of a distillation call fit their arrays exactly if the MIME type ends in
time.** -/
theorem fits_iff {D : Type} (text : DoubleText D) (p : Packet) (past : UInt8) (status : Errors) :
    ((∀ e ∈ extractions (tracedInput text) p past status, e.Fits) ↔
      ∀ mime, mimeOfInput p.data = some mime → run mime < MAX_MIMETYPE) ∧
    ((∀ e ∈ extractions tracedReply p past status, e.Fits) ↔
      ∀ mime, mimeOfOutput p.data = some mime → run mime < MAX_MIMETYPE) := by
  constructor
  · refine (goes_tracedInputHead p past status text).fits_bind_iff rfl ?_
    rintro ⟨args, data, metadata⟩ bs s h
    rw [← fits_tracedData_iff h data metadata]
    exact forall_fits_bind _ (fun _ => rfl) fun _ _ => rfl
  · refine (goes_tracedReplyHead p past status).fits_bind_iff rfl ?_
    rintro ⟨code, data, metadata⟩ bs s h
    rw [← fits_tracedData_iff h data metadata]
    exact forall_fits_bind _ (fun _ => rfl) fun _ _ => rfl

/-- A packet without arguments, data and metadata, or a result without data and metadata, whose MIME
type has fifty characters. -/
def fiftyCharacters : Packet where
  type := PTMPacketType.pktDistillerInput.toWord
  requestReplyID := 0
  data := List.replicate 12 0 ++ (List.replicate 50 97 ++ [0])
  length_le := by decide

/-- A packet with a string argument, which is followed by a MIME type of sixty characters. -/
def sixtyCharacters : Packet where
  type := PTMPacketType.pktDistillerInput.toWord
  requestReplyID := 0
  data := [0, 0, 0, 1, 0, 0, 0, 1, 0, 0, 0, 0, 120, 0] ++
    (List.replicate 8 0 ++ (List.replicate 60 97 ++ [0]))
  length_le := by decide

/-- The terminating NUL of a MIME type of fifty characters lies behind its array, in both
directions; behind a string argument it is a longer MIME type that does not fit. -/
theorem longMimeType_overflows :
    extractions (tracedInput (D := Unit) ⟨fun _ => [], fun _ => ()⟩) fiftyCharacters 0 .success =
        [⟨50, 51⟩] ∧
      extractions tracedReply fiftyCharacters 0 .success = [⟨50, 51⟩] ∧
      extractions (tracedInput (D := Unit) ⟨fun _ => [], fun _ => ()⟩) sixtyCharacters 0 .success =
        [⟨80, 2⟩, ⟨50, 61⟩] ∧
      ¬ Extraction.Fits ⟨50, 51⟩ ∧ ¬ Extraction.Fits ⟨50, 61⟩ := by
  decide +kernel

end Glomop.Rpc
