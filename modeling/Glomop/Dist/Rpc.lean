import Glomop.Network.OStream
import Glomop.Share.RequestReply

/-!
# The distillation call

A front end sends a distiller a job in one packet, and gets the result back in another:

    NNNN  (TTTT IIII value)*  LLLL data  LLLL metadata  mimeType NUL
    SSSS  LLLL data  LLLL metadata  mimeType NUL

Four letters are a word in network order; the value of an argument is a word or a string with its
NUL.  The readers' streams keep the width and the mode that one field set for the next.
-/

namespace Glomop.Rpc

open Lib Share UInt32 IStream
open Option hiding get
open List hiding get modify

/-! ## The data -/

abbrev MAX_ARG_STRING : ℕ := 80

abbrev MAX_MIMETYPE : ℕ := 50

/-- The conversions `%f` of the C library, which arguments of floating point type go through. -/
structure DoubleText (D : Type) where
  print : D → Bytes
  scan : Bytes → D

/-- The value of an argument, by its type.
`distinterface.h` `enum ArgumentType`, `union Argument::Union`. -/
inductive ArgumentValue (D : Type)
  | typeInt (value : Int32)
  | typeString (value : CString MAX_ARG_STRING)
  | typeDouble (value : D)

structure Argument (D : Type) where
  id : UInt32
  value : ArgumentValue D

def ArgumentValue.toWord {D : Type} : ArgumentValue D → UInt32
  | typeInt _ => 0
  | typeString _ => 1
  | typeDouble _ => 2

/-- A block of data, a block of metadata and a MIME type.  An absent block is an empty one.
`distinterface.h` `struct DistillerData`, `struct DistillerBuffer`. -/
structure DistillerData where
  data : Bytes
  metadata : Bytes
  mimeType : CString MAX_MIMETYPE
  data_lt : data.length < 2 ^ 32
  metadata_lt : metadata.length < 2 ^ 32
deriving DecidableEq

inductive DistillerStatus
  | distOk
  | distNoCacheManager
  | distDistillerNotFound
  | distSendError
  | distReplyTimeout
  | distOutOfLocalMemory
  | distConnectionBroken
  | distLaunchTimeout
  | distFatalError
  | distBadInput
  | distRedispatch
  | distRendezvousTimeout
deriving DecidableEq

def DistillerStatus.toWord (status : DistillerStatus) : UInt32 := UInt32.ofNat status.ctorIdx

lemma DistillerStatus.toWord_injective : Function.Injective DistillerStatus.toWord := by
  intro a b h
  cases a <;> cases b <;> first | rfl | exact absurd h (by decide)

section

variable {D : Type} (text : DoubleText D)

/-! ## Sending -/

open OStream in
/-- One argument.  A `double` is printed into an array of the size of a string argument.
`cachenet.cc` `DistillerRequest::Send`. -/
def outputArgument (arg : Argument D) : WriteM Unit := do
  outputUInt32 arg.value.toWord
  outputUInt32 arg.id
  match arg.value with
  | .typeInt value => outputInt value
  | .typeString value =>
    outputString value
    outputChar 0
  | .typeDouble value =>
    if h : (text.print value).length < MAX_ARG_STRING then
      outputString (CString.ofBytes (text.print value) h)
      outputChar 0
    else Prog.fault

def outputArguments : List (Argument D) → WriteM Unit
  | [] => pure ()
  | arg :: args => do
    outputArgument text arg
    outputArguments args

open OStream in
/-- The length of a block and the block.
`cachenet.cc` `DistillerRequest::Send`, `distnet.cc` `ProxyConnection::SendReply`. -/
def outputBlock (block : Bytes) : WriteM Unit := do
  outputUInt32 (UInt32.ofNat block.length)
  binary false
  if UInt32.ofNat block.length > 0 then append block else pure ()

open OStream in
/-- The packet that `DistillerRequest::Send` writes.
`cachenet.cc`. -/
def send (requestID : UInt32) (args : List (Argument D)) (input : DistillerData) :
    Option Packet := do
  let (_, stream) ← (do
    binary true
    outputInt (Int32.ofNat args.length)
    outputArguments text args
    binary true
    outputBlock input.data
    binary true
    outputBlock input.metadata
    outputString input.mimeType : WriteM Unit) OStream.new
  return stream.toPacket PTMPacketType.pktDistillerInput.toWord requestID

open OStream in
/-- The packet that `ProxyConnection::SendReply` writes.
`distnet.cc`. -/
def sendReply (status : DistillerStatus) (output : DistillerData) (replyID : UInt32) :
    Option Packet := do
  let (_, stream) ← (do
    binary true
    outputUInt32 status.toWord
    outputBlock output.data
    binary true
    outputBlock output.metadata
    outputString output.mimeType : WriteM Unit) OStream.new
  return stream.toPacket PTMPacketType.pktDistillerOutput.toWord replyID

/-! ## Receiving -/

open IStream

/-- `Return(gm_False, errorCode)`. -/
def fail {α : Type} (errorCode : Errors) : ReadM (Option α) := do
  modify fun s => { s with status := errorCode }
  return none

/-- One argument; `none` where the function returns `gm_False`.
`distnet.cc` `ProxyConnection::UnmarshallDistillerInput`. -/
def inputArgument : ReadM (Option (Argument D)) := do
  let argTypeUINT32 ← inputUInt32 0
  let id ← inputUInt32 0
  let s ← get
  if s.isGood = false then return none
  else if argTypeUINT32 = 0 then
    let value ← inputInt 0
    let s ← get
    if s.isGood = false then return none else return some ⟨id, .typeInt value⟩
  else if argTypeUINT32 = 1 then
    setW (UInt32.ofNat MAX_ARG_STRING)
    delimit 0
    let value ← inputString (CString.empty MAX_ARG_STRING)
    skip
    let s ← get
    if s.isGood = false then return none else return some ⟨id, .typeString value⟩
  else if argTypeUINT32 = 2 then
    setW (UInt32.ofNat MAX_ARG_STRING)
    delimit 0
    let doubleString ← inputString (CString.empty MAX_ARG_STRING)
    skip
    let s ← get
    if s.isGood = false then return none
    else return some ⟨id, .typeDouble (text.scan doubleString.chars)⟩
  else fail .errFormattingError

def inputArguments : ℕ → ReadM (Option (List (Argument D)))
  | 0 => return some []
  | n + 1 => do
    match ← inputArgument text with
    | none => return none
    | some arg =>
      match ← inputArguments n with
      | none => return none
      | some args => return some (arg :: args)

/-- The block behind its length; `none` where the function returns `gm_False`. -/
def inputBlock (length : UInt32) : ReadM (Option Bytes) := do
  if length > 0 then
    let block ← extract length
    let s ← get
    if s.isGood = false then return none else return block
  else return some []

/-- A record from blocks whose lengths fit a word. -/
def DistillerData.ofBlocks (data metadata : Bytes) (mimeType : CString MAX_MIMETYPE)
    (h : data.length < 2 ^ 32 ∧ metadata.length < 2 ^ 32) : DistillerData :=
  ⟨data, metadata, mimeType, h.1, h.2⟩

def inputData (data metadata : Bytes) : ReadM (Option DistillerData) := do
  let mimeType ← inputString (CString.empty MAX_MIMETYPE)
  let s ← get
  if s.isGood = false then return none
  else if h : data.length < 2 ^ 32 ∧ metadata.length < 2 ^ 32 then
    return some (.ofBlocks data metadata mimeType h)
  else Prog.fault

/-- The arguments and the input of a job; `none` where the function returns `gm_False`.
`distnet.cc`. -/
def unmarshallDistillerInput : ReadM (Option (List (Argument D) × DistillerData)) := do
  binary true
  let numberOfArgs ← inputUInt32 0
  let s ← get
  if s.isGood = false then return none
  else
    match ← inputArguments text numberOfArgs.toNat with
    | none => return none
    | some args =>
      binary true
      let length ← inputUInt32 0
      binary false
      let s ← get
      if s.isGood = false then return none
      else
        match ← inputBlock length with
        | none => return none
        | some data =>
          binary true
          let length ← inputUInt32 0
          binary false
          let s ← get
          if s.isGood = false then return none
          else
            match ← inputBlock length with
            | none => return none
            | some metadata =>
              match ← inputData data metadata with
              | none => return none
              | some input => return some (args, input)

/-- What a front end makes of a result; the status is kept as the word it is.
`cachenet.h`. -/
structure DistillerReply where
  status : UInt32
  output : DistillerData
deriving DecidableEq

/-- Reading a result; `none` where the handler returns `gm_False`.  Unlike its counterpart it does
not look at the stream after the length of the metadata.
`cachenet.cc` `DistillerConnection::EvPacketReceived`. -/
def inputReply : ReadM (Option DistillerReply) := do
  binary true
  let status ← inputUInt32 0
  let length ← inputUInt32 0
  binary false
  let s ← get
  if s.isGood = false then return none
  else
    match ← inputBlock length with
    | none => return none
    | some data =>
      binary true
      let length ← inputUInt32 0
      binary false
      match ← inputBlock length with
      | none => return none
      | some metadata =>
        match ← inputData data metadata with
        | none => return none
        | some output => return some ⟨status, output⟩

/-- A packet arrives from a distiller: the object that gets a result out of it, and the result.
`cachenet.cc`. -/
def evPacketReceived (evs : RequestReplyEventSystem) (p : Packet) (past : UInt8)
    (status : Errors) : Option (Option (RequestReply × DistillerReply)) := do
  if p.type = PTMPacketType.pktDistillerOutput.toWord then
    let (reply, _) ← inputReply (IStream.ofPacket p past status)
    match reply with
    | none => return none
    | some reply =>
      let request ← evs.sendReplyReceivedEvent p.requestReplyID
      return request.map fun request => (request, reply)
  else return none

end

/-! ## What is sent -/

variable {input output : DistillerData} {p : Packet} {requestID : UInt32} {status : DistillerStatus}

section Sending

open OStream

variable {D : Type}

/-- An argument that is not a `double`. -/
def Argument.Exact (arg : Argument D) : Prop := ∀ value, arg.value ≠ .typeDouble value

def argumentText (arg : Argument D) : Bytes :=
  IStream.htonl arg.value.toWord ++ (IStream.htonl arg.id ++
    match arg.value with
    | .typeInt value => IStream.htonl value.toUInt32
    | .typeString value => value.chars ++ [0]
    | .typeDouble _ => [])

def blockText (block : Bytes) : Bytes := IStream.htonl (UInt32.ofNat block.length) ++ block

def dataText (d : DistillerData) : Bytes :=
  blockText d.data ++ (blockText d.metadata ++ d.mimeType.chars)

def requestText (args : List (Argument D)) (input : DistillerData) : Bytes :=
  IStream.htonl (UInt32.ofNat args.length) ++ (args.flatMap argumentText ++ dataText input)

def replyText (status : DistillerStatus) (output : DistillerData) : Bytes :=
  IStream.htonl status.toWord ++ dataText output

lemma emits_outputArgument (text : DoubleText D) {arg : Argument D} (h : arg.Exact) :
    Emits true true (outputArgument text arg) (argumentText arg) := by
  obtain ⟨id, value⟩ := arg
  cases value with
  | typeInt value =>
    exact (Emits.outputUInt32 true 0).seq <| (Emits.outputUInt32 true id).seq <|
      Emits.outputInt true value
  | typeString value =>
    exact (Emits.outputUInt32 true 1).seq <| (Emits.outputUInt32 true id).seq <|
      (Emits.outputString true value).seq <| Emits.outputChar true 0
  | typeDouble value => exact absurd rfl (h value)

variable {args : List (Argument D)}

lemma emits_outputArguments (text : DoubleText D) (h : ∀ arg ∈ args, arg.Exact) :
    Emits true true (outputArguments text args) (args.flatMap argumentText) := by
  induction args with
  | nil => exact .pure true
  | cons arg args ih =>
    exact (emits_outputArgument text (h arg (.head _))).seq
      (ih fun arg' hmem => h arg' (.tail arg hmem))

lemma eq_nil_of_not_pos {block : Bytes} (h : block.length < 2 ^ 32)
    (hpos : ¬ ofNat block.length > 0) : block = [] := by
  rw [gt_iff_lt, lt_iff_toNat_lt, toNat_ofNat', Nat.mod_eq_of_lt h] at hpos
  exact length_eq_zero_iff.mp (Nat.eq_zero_of_not_pos hpos)

lemma emits_outputBlock {block : Bytes} (h : block.length < 2 ^ 32) :
    Emits true false (outputBlock block) (blockText block) := by
  have hb : Emits false false
      (if ofNat block.length > 0 then append block else pure ()) block := by
    split_ifs with hpos
    · exact .append false block
    · rw [eq_nil_of_not_pos h hpos]
      exact .pure false
  exact (Emits.outputUInt32 true _).seq ((Emits.binary true false).seq hb)

lemma emits_data (d : DistillerData) :
    Emits true false (do
      outputBlock d.data
      binary true
      outputBlock d.metadata
      outputString d.mimeType) (dataText d) :=
  (emits_outputBlock d.data_lt).seq <| (Emits.binary false true).seq <|
    (emits_outputBlock d.metadata_lt).seq <| Emits.outputString false d.mimeType

lemma emits_request (text : DoubleText D) (h : ∀ arg ∈ args, arg.Exact) (input : DistillerData) :
    Emits false false (do
      binary true
      outputInt (Int32.ofNat args.length)
      outputArguments text args
      binary true
      outputBlock input.data
      binary true
      outputBlock input.metadata
      outputString input.mimeType) (requestText args input) := by
  have he := (Emits.binary false true).seq <|
    (Emits.outputInt true (Int32.ofNat args.length)).seq <|
    (emits_outputArguments text h).seq <| (Emits.binary true true).seq <| emits_data input
  exact he

lemma emits_reply (status : DistillerStatus) (output : DistillerData) :
    Emits false false (do
      binary true
      outputUInt32 status.toWord
      outputBlock output.data
      binary true
      outputBlock output.metadata
      outputString output.mimeType) (replyText status output) :=
  (Emits.binary false true).seq <| (Emits.outputUInt32 true _).seq <| emits_data output

lemma send_id {text : DoubleText D} (hs : send text requestID args input = some p) :
    p.requestReplyID = requestID := by
  unfold send at hs
  obtain ⟨_, -, hp⟩ := bind_eq_some_iff.mp hs
  cases hp
  rfl

/-- **What the packet of a job contains.** -/
theorem send_data {text : DoubleText D} (h : ∀ arg ∈ args, arg.Exact)
    (hs : send text requestID args input = some p) : p.data = requestText args input ++ [0] := by
  unfold send at hs
  obtain ⟨⟨_, s'⟩, hrun, hp⟩ := bind_eq_some_iff.mp hs
  obtain ⟨hw, -⟩ := (emits_request text h input).sound _ _ rfl hrun
  cases hp
  change s'.written ++ [0] = _
  rw [hw]
  rfl

lemma send_isSome (text : DoubleText D) (requestID : UInt32) (h : ∀ arg ∈ args, arg.Exact)
    (input : DistillerData) (hlen : (requestText args input).length < 2 ^ 31) :
    ∃ p, send text requestID args input = some p := by
  obtain ⟨s', hrun⟩ := (emits_request text h input).total new rfl (by
    change 0 + _ < _
    omega)
  exact ⟨_, by
    unfold send
    rw [hrun]
    rfl⟩

/-- **What the packet of a result contains.** -/
theorem sendReply_spec {replyID : UInt32} (hs : sendReply status output replyID = some p) :
    p.data = replyText status output ++ [0] ∧
      p.type = PTMPacketType.pktDistillerOutput.toWord ∧ p.requestReplyID = replyID := by
  unfold sendReply at hs
  obtain ⟨⟨_, s'⟩, hrun, hp⟩ := bind_eq_some_iff.mp hs
  obtain ⟨hw, -⟩ := (emits_reply status output).sound _ _ rfl hrun
  cases hp
  refine ⟨?_, rfl, rfl⟩
  change s'.written ++ [0] = _
  rw [hw]
  rfl

lemma sendReply_isSome (status : DistillerStatus) (output : DistillerData) (replyID : UInt32)
    (hlen : (replyText status output).length < 2 ^ 31) :
    ∃ p, sendReply status output replyID = some p := by
  obtain ⟨s', hrun⟩ := (emits_reply status output).total new rfl (by
    change 0 + _ < _
    omega)
  exact ⟨_, by
    unfold sendReply
    rw [hrun]
    rfl⟩

end Sending

/-! ## What is received -/

section Receiving

open IStream Prog

variable {D : Type} {s : IStream} {w : UInt32} {r : Bytes} {st : Errors}

def Ready (w : UInt32) (r : Bytes) (st : Errors) (s : IStream) : Prop :=
  ∃ w', (w' = w ∨ w' = UInt32.ofNat MAX_ARG_STRING) ∧ s.Shows 0 w' true r st

/-- **An argument is read off**, whatever lies behind it. -/
theorem returns_inputArgument (text : DoubleText D) {arg : Argument D} (he : arg.Exact)
    (h : Ready w (argumentText arg ++ r) st s) :
    Returns (inputArgument text) s (some arg) (Ready w r st) := by
  obtain ⟨w', hw', h⟩ := h
  rw [argumentText, append_assoc, append_assoc] at h
  unfold inputArgument
  refine .bind (returns_inputUInt32_binary h) fun s1 h1 => ?_
  refine .bind (returns_inputUInt32_binary h1) fun s2 h2 => ?_
  refine .bind (returns_get h2) fun s3 h3 => ?_
  rw [if_neg (by simp [h2.good])]
  obtain ⟨id, value | value | value⟩ := arg
  · rw [if_pos (by rfl)]
    refine .bind (returns_inputInt_binary h3) fun s4 h4 => ?_
    refine .bind (returns_get h4) fun s5 h5 => ?_
    rw [if_neg (by simp [h4.good])]
    exact .pure _ ⟨w', hw', h5⟩
  · -- the width and the delimiter are set anew, and the NUL is skipped
    have h3' : s3.Shows 0 w' true (value.chars ++ 0 :: r) st := by
      rw [← singleton_append, ← append_assoc]
      exact h3
    rw [if_neg (by simp [ArgumentValue.toWord]), if_pos (by rfl)]
    refine .bind (returns_setW h3' _) fun s4 h4 => ?_
    refine .bind (returns_delimit h4 0) fun s5 h5 => ?_
    refine .bind (returns_inputString h5 value.noNul (by decide)) fun s6 h6 => ?_
    refine .bind (returns_skip h6) fun s7 h7 => ?_
    refine .bind (returns_get h7) fun s8 h8 => ?_
    rw [if_neg (by simp [h7.good])]
    exact .pure _ ⟨_, .inr rfl, h8⟩
  · exact absurd rfl (he value)

/-- **All arguments are read off**, in order. -/
theorem returns_inputArguments (text : DoubleText D) {args : List (Argument D)}
    (he : ∀ arg ∈ args, arg.Exact) (h : Ready w (args.flatMap argumentText ++ r) st s) :
    Returns (inputArguments text args.length) s (some args) (Ready w r st) := by
  induction args generalizing s with
  | nil => exact Returns.pure _ h
  | cons arg args ih =>
    rw [flatMap_cons, append_assoc] at h
    refine .bind (returns_inputArgument text (he arg (.head _)) h) fun s1 h1 => ?_
    refine .bind (ih (fun arg' hmem => he arg' (.tail arg hmem)) h1) fun s2 h2 => ?_
    exact .pure _ h2

/-- **A block is read off**, whatever its bytes are. -/
theorem returns_inputBlock {b : Bool} {block : Bytes} (hlt : block.length < 2 ^ 32)
    (h : s.Shows 0 w b (block ++ r) st) :
    Returns (inputBlock (ofNat block.length)) s (some block) (·.Shows 0 w b r st) := by
  unfold inputBlock
  split_ifs with hpos
  · refine .bind (returns_extract h) fun s1 h1 => ?_
    refine .bind (returns_get h1) fun s2 h2 => ?_
    rw [if_neg (by simp [h1.good])]
    exact .pure _ h2
  · rw [eq_nil_of_not_pos hlt hpos] at h ⊢
    exact .pure _ h

lemma returns_inputData {b : Bool} (d : DistillerData) (hw : d.mimeType.chars.length < w.toNat)
    (h : s.Shows 0 w b (d.mimeType.chars ++ [0]) st) :
    Returns (inputData d.data d.metadata) s (some d) (·.Shows 0 w b [0] st) := by
  unfold inputData
  refine .bind (returns_inputString_of_lt h d.mimeType.noNul hw) fun s1 h1 => ?_
  refine .bind (returns_get h1) fun s2 h2 => ?_
  rw [if_neg (by simp [h1.good]), dif_pos ⟨d.data_lt, d.metadata_lt⟩]
  exact .pure _ h2

/-- **A job is read off.**  The MIME type is read at the width of the new stream, or at that of a
string argument; both leave room for it. -/
theorem returns_unmarshallDistillerInput (text : DoubleText D) {args : List (Argument D)}
    (he : ∀ arg ∈ args, arg.Exact) (hc : args.length < 2 ^ 32) (input : DistillerData)
    (hw : input.mimeType.chars.length < w.toNat)
    (h : s.Shows 0 w false (requestText args input ++ [0]) st) :
    Returns (unmarshallDistillerInput text) s (some (args, input))
      (fun s' => s'.isGood = true ∧ s'.status = st) := by
  have hl : (ofNat args.length).toNat = args.length := by
    rw [toNat_ofNat']
    omega
  simp only [requestText, dataText, blockText, append_assoc] at h
  unfold unmarshallDistillerInput
  refine .bind (returns_binary h true) fun s1 h1 => ?_
  refine .bind (returns_inputUInt32_binary h1) fun s2 h2 => ?_
  refine .bind (returns_get h2) fun s3 h3 => ?_
  rw [if_neg (by simp [h2.good]), hl]
  refine .bind (returns_inputArguments text he ⟨w, .inl rfl, h3⟩) fun s4 h4 => ?_
  obtain ⟨w', hw', h4⟩ := h4
  have hr : input.mimeType.chars.length < w'.toNat := by
    rcases hw' with rfl | rfl
    · exact hw
    · exact input.mimeType.fits.trans (by decide)
  refine .bind (returns_binary h4 true) fun s5 h5 => ?_
  refine .bind (returns_inputUInt32_binary h5) fun s6 h6 => ?_
  refine .bind (returns_binary h6 false) fun s7 h7 => ?_
  refine .bind (returns_get h7) fun s8 h8 => ?_
  rw [if_neg (by simp [h7.good])]
  refine .bind (returns_inputBlock input.data_lt h8) fun s9 h9 => ?_
  refine .bind (returns_binary h9 true) fun s₁₀ h10 => ?_
  refine .bind (returns_inputUInt32_binary h10) fun s₁₁ h11 => ?_
  refine .bind (returns_binary h11 false) fun s₁₂ h12 => ?_
  refine .bind (returns_get h12) fun s₁₃ h13 => ?_
  rw [if_neg (by simp [h12.good])]
  refine .bind (returns_inputBlock input.metadata_lt h13) fun s₁₄ h14 => ?_
  refine .bind (returns_inputData input hr h14) fun s₁₅ h15 => ?_
  exact .pure _ ⟨h15.good, h15.status_eq⟩

/-- **A result is read off.** -/
theorem returns_inputReply (status : DistillerStatus) (output : DistillerData)
    (hw : output.mimeType.chars.length < w.toNat)
    (h : s.Shows 0 w false (replyText status output ++ [0]) st) :
    Returns inputReply s (some ⟨status.toWord, output⟩)
      (fun s' => s'.isGood = true ∧ s'.status = st) := by
  simp only [replyText, dataText, blockText, append_assoc] at h
  unfold inputReply
  refine .bind (returns_binary h true) fun s1 h1 => ?_
  refine .bind (returns_inputUInt32_binary h1) fun s2 h2 => ?_
  refine .bind (returns_inputUInt32_binary h2) fun s3 h3 => ?_
  refine .bind (returns_binary h3 false) fun s4 h4 => ?_
  refine .bind (returns_get h4) fun s5 h5 => ?_
  rw [if_neg (by simp [h4.good])]
  refine .bind (returns_inputBlock output.data_lt h5) fun s6 h6 => ?_
  refine .bind (returns_binary h6 true) fun s7 h7 => ?_
  refine .bind (returns_inputUInt32_binary h7) fun s8 h8 => ?_
  refine .bind (returns_binary h8 false) fun s9 h9 => ?_
  refine .bind (returns_inputBlock output.metadata_lt h9) fun s₁₀ h10 => ?_
  refine .bind (returns_inputData output hw h10) fun s₁₁ h11 => ?_
  exact .pure _ ⟨h11.good, h11.status_eq⟩

end Receiving

/-! ## There and back -/

section RoundTrip

variable {D : Type}

lemma lt_getLength {b t : Bytes} (h : p.data = b ++ t ++ [0]) : t.length < p.getLength.toNat := by
  have hle : p.data.length ≤ 2 ^ 31 := p.length_le
  have hl : p.getLength.toNat = p.data.length := by
    rw [Packet.getLength, toNat_ofNat', Nat.mod_eq_of_lt (by omega)]
  rw [hl, h]
  simp only [length_append, length_singleton]
  omega

lemma length_le_argumentsText (args : List (Argument D)) :
    args.length ≤ (args.flatMap argumentText).length := by
  induction args with
  | nil => exact Nat.zero_le _
  | cons arg args ih =>
    have ho : 1 ≤ (argumentText arg).length := by
      simp only [argumentText, length_append]
      exact Nat.le_add_right_of_le (Nat.le_add_left 1 3)
    simp only [flatMap_cons, length_append, length_cons]
    omega

lemma unmarshall_of_send {text : DoubleText D} {args : List (Argument D)}
    (he : ∀ arg ∈ args, arg.Exact) (hp : send text requestID args input = some p) (past : UInt8)
    (st : Errors) :
    ∃ s', unmarshallDistillerInput text (ofPacket p past st) =
        some (some (args, input), s') ∧ s'.isGood = true ∧ s'.status = st := by
  have hd := send_data he hp
  have hc : args.length < 2 ^ 32 := by
    have h1 : p.data.length ≤ 2 ^ 31 := p.length_le
    have h2 := length_le_argumentsText args
    simp only [hd, requestText, length_append] at h1
    omega
  have hr : input.mimeType.chars.length < p.getLength.toNat := by
    refine lt_getLength (b := htonl (ofNat args.length) ++
      (args.flatMap argumentText ++ (blockText input.data ++ blockText input.metadata))) ?_
    simp [hd, requestText, dataText]
  exact returns_unmarshallDistillerInput text he hc input hr ⟨rfl, rfl, rfl, rfl, hd, rfl⟩

lemma evPacketReceived_of_sendReply {evs : RequestReplyEventSystem} {r : RequestReply}
    (hr : evs.sendReplyReceivedEvent r.id = some (some r))
    (hp : sendReply status output r.id = some p) (past : UInt8) (st : Errors) :
    evPacketReceived evs p past st = some (some (r, ⟨status.toWord, output⟩)) := by
  obtain ⟨hd, ht, hid⟩ := sendReply_spec hp
  have hl : output.mimeType.chars.length < p.getLength.toNat := by
    refine lt_getLength (b := htonl status.toWord ++
      (blockText output.data ++ blockText output.metadata)) ?_
    simp [hd, replyText, dataText]
  obtain ⟨s', hrun, -⟩ := @returns_inputReply (ofPacket p past st) _ _ status output hl
    ⟨rfl, rfl, rfl, rfl, hd, rfl⟩
  unfold evPacketReceived
  rw [if_pos ht, hrun, hid]
  simp only [bind_eq_bind, bind_some, hr]
  rfl

/-- **Round trip of the distillation call.**  For every job whose arguments are integers and
strings, the packet is built as long as it is shorter than `2 ^ 31` bytes, and the distiller that
reads it gets the same arguments and the same input.  So is the packet of a result, and the front
end gets the same status and output for the object whose number it carries, whatever requests there
were before. -/
theorem rpc_roundTrip (text : DoubleText D) (args : List (Argument D)) (input : DistillerData)
    (hexact : ∀ arg ∈ args, arg.Exact) (requestID : UInt32) {ops : List RequestReplyEventSystem.Op}
    {evs : RequestReplyEventSystem}
    (hrun : Run RequestReplyEventSystem.step RequestReplyEventSystem.new ops evs) (r : RequestReply)
    (hr : evs.Registered r) (status : DistillerStatus) (output : DistillerData) :
    ((requestText args input).length < 2 ^ 31 → ∃ p, send text requestID args input = some p) ∧
    (∀ p, send text requestID args input = some p → p.requestReplyID = requestID ∧ ∀ past st,
      ∃ s', unmarshallDistillerInput text (IStream.ofPacket p past st) =
        some (some (args, input), s') ∧ s'.isGood = true ∧ s'.status = st) ∧
    ((replyText status output).length < 2 ^ 31 → ∃ p, sendReply status output r.id = some p) ∧
    (∀ p, sendReply status output r.id = some p → ∀ past st, ∃ reply,
      evPacketReceived evs p past st = some (some (r, reply)) ∧
        (∀ status', reply.status = status'.toWord ↔ status' = status) ∧ reply.output = output) := by
  have hd := (hrun.invariant (fun _ _ _ hs hst => hs.step hst)
    RequestReplyEventSystem.numbered_new).delivered hr
  refine ⟨send_isSome text requestID hexact input,
    fun p hp => ⟨send_id hp, unmarshall_of_send hexact hp⟩,
    sendReply_isSome status output r.id, fun p hp past st => ?_⟩
  refine ⟨_, evPacketReceived_of_sendReply hd hp past st, fun status' => ?_, rfl⟩
  exact ⟨fun h => (DistillerStatus.toWord_injective h).symm, fun h => h ▸ rfl⟩

/-- The round trip of a job with arguments of both types and without metadata, and of a failed
one. -/
theorem rpc_roundTrip_sample :
    let text : DoubleText Unit := ⟨fun _ => [], fun _ => ()⟩
    let args : List (Argument Unit) :=
      [⟨7, .typeString ⟨[47, 124], by decide, by decide⟩⟩, ⟨3, .typeInt (-1)⟩]
    let input : DistillerData :=
      ⟨[0, 255], [], ⟨[97, 47, 98], by decide, by decide⟩, by decide, by decide⟩
    let r : RequestReply := ⟨0, 1⟩
    ∃ evs p reply, send text 9 args input = some p ∧
      (∃ s', unmarshallDistillerInput text (IStream.ofPacket p 0 .success) =
        some (some (args, input), s')) ∧
      sendReply .distBadInput input r.id = some reply ∧
      evPacketReceived evs reply 0 .success =
        some (some (r, ⟨DistillerStatus.distBadInput.toWord, input⟩)) := by
  intro text args input r
  have hrp : (replay (fun _ _ => True) RequestReplyEventSystem.next
      RequestReplyEventSystem.new [.create 0]).any
        (fun evs => r ∈ evs.requestReplyIndex.entries) = true := by decide +kernel
  obtain ⟨evs, hrun, hre⟩ := exists_run_of_decide hrp
  have he : ∀ arg ∈ args, arg.Exact := by
    intro arg ha value hv
    simp only [args, mem_cons, not_mem_nil, or_false] at ha
    rcases ha with rfl | rfl <;> exact nomatch hv
  obtain ⟨hse, hrc, hs, hrr⟩ := rpc_roundTrip text args input he 9 hrun r hre .distBadInput input
  obtain ⟨p, hp⟩ := hse (by decide)
  obtain ⟨p', hp'⟩ := hs (by decide)
  obtain ⟨s', hs', -⟩ := (hrc p hp).2 0 .success
  obtain ⟨⟨status, output⟩, hrep, hst, ho⟩ := hrr p' hp' 0 .success
  obtain rfl : status = DistillerStatus.distBadInput.toWord := (hst _).mpr rfl
  obtain rfl : output = input := ho
  exact ⟨evs, p, p', hp, ⟨s', hs'⟩, hp', hrep⟩

end RoundTrip

end Glomop.Rpc
