import Glomop.Network.OStream
import Glomop.Share.Strtok

/-!
# Distillers and their text form

A `BasicDistiller`, and the stream operators for it and its parts.  The text of a distiller is

    ip/port|type|latency|threshold

For each part there are two facts: what the output operator appends (`emits_`), and that the input
operator reads exactly that back (`returns_`), whenever the address has no `/` and the type no `|`.
Source: `distdb.h`, `distdb.cc`.
-/

namespace Glomop

open Lib IStream
open List hiding get

/-- Where a process listens. -/
structure RemoteID where
  ipAddress : CString MAXIP
  port : Int32
deriving DecidableEq

/-- `RemoteID::RemoteID()`. -/
def RemoteID.empty : RemoteID := ⟨CString.empty MAXIP, 0⟩

abbrev DistillerType := CString MAXDISTILLER_TYPE_STRING

structure Load where
  totalLatency_ms : UInt32
  ignoreThreshold_ms : UInt32
deriving DecidableEq

/-- `Load::Load()`. -/
def Load.zero : Load := ⟨0, 0⟩

/-- `Load::operator +=`. -/
def Load.add (load add : Load) : Load :=
  { load with totalLatency_ms := load.totalLatency_ms + add.totalLatency_ms }

/-- `Load::operator -=`. -/
def Load.sub (load sub : Load) : Load :=
  { load with totalLatency_ms := load.totalLatency_ms - sub.totalLatency_ms }

def Load.average (load sum : Load) (total : ℕ) : Load :=
  { load with
    totalLatency_ms := if total = 0 then 0 else sum.totalLatency_ms / UInt32.ofNat total }

/-- What every party knows about a distiller. -/
structure BasicDistiller where
  rid : RemoteID
  type : DistillerType
  load : Load
deriving DecidableEq

/-- `BasicDistiller::BasicDistiller()`. -/
def BasicDistiller.empty : BasicDistiller :=
  ⟨RemoteID.empty, CString.empty MAXDISTILLER_TYPE_STRING, Load.zero⟩

/-! ## Matching types -/

/-- The comparison loop: token by token, where `*` in the first list stands for any token. -/
def satisfies : List Bytes → List Bytes → Bool
  | [], [] => true
  | t₁ :: ts₁, t₂ :: ts₂ => (t₁ = [42] || t₁ = t₂) && satisfies ts₁ ts₂
  | _, _ => false

/-- A distiller of this type can do the requested work. -/
def canSatisfy (type request : DistillerType) : Bool :=
  satisfies (tokens [slash] type.chars) (tokens [slash] request.chars)

/-! ## Output -/

/-- `operator << (OStream&, RemoteID&)`. -/
def outputRemoteID (rid : RemoteID) : WriteM Unit := do
  let s ← get
  let origMode := s.binaryMode
  OStream.binary false
  OStream.outputString rid.ipAddress
  OStream.outputChar slash
  OStream.outputInt rid.port
  OStream.binary origMode

/-- `operator << (OStream&, Load&)`. -/
def outputLoad (load : Load) : WriteM Unit := do
  let s ← get
  let origMode := s.binaryMode
  OStream.binary false
  OStream.outputUInt32 load.totalLatency_ms
  OStream.outputChar bar
  OStream.outputUInt32 load.ignoreThreshold_ms
  OStream.binary origMode

/-- `operator << (OStream&, BasicDistiller&)`. -/
def outputDistiller (record : BasicDistiller) : WriteM Unit := do
  outputRemoteID record.rid
  OStream.outputChar bar
  OStream.outputString record.type
  OStream.outputChar bar
  outputLoad record.load

/-! ## Input -/

/-- `operator >> (IStream&, RemoteID&)`. -/
def inputRemoteID (rid : RemoteID) : ReadM RemoteID := do
  let s ← get
  let origMode := s.binaryMode
  let origDelimit := s.delimiter
  let origGetW := s.stringWidth
  IStream.binary false
  IStream.delimit slash
  IStream.setW (UInt32.ofNat MAXIP)
  let ipAddress ← IStream.inputString rid.ipAddress
  IStream.skip
  IStream.delimit origDelimit
  let port ← IStream.inputInt rid.port
  IStream.setW origGetW
  IStream.binary origMode
  return ⟨ipAddress, port⟩

/-- `operator >> (IStream&, Load&)`. -/
def inputLoad (load : Load) : ReadM Load := do
  let s ← get
  let origMode := s.binaryMode
  let origDelimit := s.delimiter
  IStream.binary false
  IStream.delimit bar
  let totalLatency_ms ← IStream.inputUInt32 load.totalLatency_ms
  IStream.skip
  IStream.delimit origDelimit
  let ignoreThreshold_ms ← IStream.inputUInt32 load.ignoreThreshold_ms
  IStream.binary origMode
  return ⟨totalLatency_ms, ignoreThreshold_ms⟩

/-- `operator >> (IStream&, DistillerType&)`. -/
def inputType (type : DistillerType) : ReadM DistillerType := do
  let s ← get
  let origGetW := s.stringWidth
  IStream.setW (UInt32.ofNat MAXDISTILLER_TYPE_STRING)
  let string ← IStream.inputString type
  IStream.setW origGetW
  return string

/-- `operator >> (IStream&, BasicDistiller&)`. -/
def inputDistiller (record : BasicDistiller) : ReadM BasicDistiller := do
  let s ← get
  let origDelimit := s.delimiter
  IStream.delimit bar
  let rid ← inputRemoteID record.rid
  IStream.skip
  let type ← inputType record.type
  IStream.skip
  IStream.delimit origDelimit
  let load ← inputLoad record.load
  return ⟨rid, type, load⟩

/-! ## The text of each part -/

/-- `ip/port`. -/
def RemoteID.text (rid : RemoteID) : Bytes := rid.ipAddress.chars ++ slash :: printInt rid.port

/-- `latency|threshold`. -/
def Load.text (load : Load) : Bytes :=
  printUInt32 load.totalLatency_ms ++ bar :: printUInt32 load.ignoreThreshold_ms

/-- `ip/port|type|latency|threshold`. -/
def BasicDistiller.text (record : BasicDistiller) : Bytes :=
  record.rid.text ++ bar :: (record.type.chars ++ bar :: record.load.text)

open OStream in
lemma emits_outputRemoteID (m : Bool) (rid : RemoteID) :
    Emits m m (outputRemoteID rid) rid.text := by
  refine Emits.withMode fun s hs => ?_
  rw [hs]
  have h := (Emits.binary m false).seq <| (Emits.outputString false rid.ipAddress).seq <|
    (Emits.outputChar false slash).seq <| (Emits.outputInt false rid.port).seq <|
    Emits.binary false m
  simpa [RemoteID.text] using h

open OStream in
lemma emits_outputLoad (m : Bool) (load : Load) : Emits m m (outputLoad load) load.text := by
  refine Emits.withMode fun s hs => ?_
  rw [hs]
  have h := (Emits.binary m false).seq <| (Emits.outputUInt32 false load.totalLatency_ms).seq <|
    (Emits.outputChar false bar).seq <| (Emits.outputUInt32 false load.ignoreThreshold_ms).seq <|
    Emits.binary false m
  simpa [Load.text] using h

open OStream in
lemma emits_outputDistiller (m : Bool) (record : BasicDistiller) :
    Emits m m (outputDistiller record) record.text := by
  have h := (emits_outputRemoteID m record.rid).seq <| (Emits.outputChar m bar).seq <|
    (Emits.outputString m record.type).seq <| (Emits.outputChar m bar).seq <|
    emits_outputLoad m record.load
  simpa [BasicDistiller.text, outputDistiller] using h

/-! ## Reading the text back -/

section Input

open Prog IStream

variable {s : IStream} {d : UInt8} {w : UInt32} {m : Bool} {r : Bytes} {st : Errors}

lemma returns_inputRemoteID_chars {ip port : Bytes} {v : Int32} {old : RemoteID}
    (h : s.Shows d w m (ip ++ slash :: (port ++ d :: r)) st) (hip : slash ∉ ip)
    (hlen : ip.length < MAXIP) (hd : d ∉ port) (hp : port.length < numberWidth)
    (hs : scanInt (cString port) = some v) :
    Returns (inputRemoteID old) s ⟨CString.ofBytes ip hlen, v⟩ (·.Shows d w m (d :: r) st) := by
  unfold inputRemoteID
  refine .bind (returns_get h) fun s0 h0 => ?_
  rw [h.mode_eq, h.delimiter_eq, h.width_eq]
  refine .bind (returns_binary h0 false) fun s1 h1 => ?_
  refine .bind (returns_delimit h1 slash) fun s2 h2 => ?_
  refine .bind (returns_setW h2 _) fun s3 h3 => ?_
  refine .bind (returns_inputString_chars h3 hip hlen hlen) fun s4 h4 => ?_
  refine .bind (returns_skip h4) fun s5 h5 => ?_
  refine .bind (returns_delimit h5 d) fun s6 h6 => ?_
  refine .bind (returns_inputNumber_chars h6 hd hp hs) fun s7 h7 => ?_
  refine .bind (returns_setW h7 w) fun s8 h8 => ?_
  refine .bind (returns_binary h8 m) fun s9 h9 => ?_
  exact .pure _ h9

/-- **An address is read back** when its IP text has no `/`. -/
theorem returns_inputRemoteID {rid old : RemoteID} (hip : slash ∉ rid.ipAddress.chars)
    (hd : Separates d) (h : s.Shows d w m (rid.text ++ d :: r) st) :
    Returns (inputRemoteID old) s rid (·.Shows d w m (d :: r) st) := by
  rw [RemoteID.text, append_assoc, cons_append] at h
  have hn : cString (printInt rid.port) = printInt rid.port :=
    cString_eq_self (separates_nul.not_mem_printInt rid.port)
  have hr : Returns (inputRemoteID old) s
      ⟨CString.ofBytes rid.ipAddress.chars rid.ipAddress.fits, rid.port⟩
        (·.Shows d w m (d :: r) st) :=
    returns_inputRemoteID_chars h hip rid.ipAddress.fits (hd.not_mem_printInt rid.port)
      (intText rid.port).fits (hn.symm ▸ scanInt_printInt rid.port)
  rwa [CString.ofBytes_chars] at hr

/-- **A load is read back.** -/
theorem returns_inputLoad {load old : Load} (hd : Separates d)
    (h : s.Shows d w m (load.text ++ d :: r) st) :
    Returns (inputLoad old) s load (·.Shows d w m (d :: r) st) := by
  unfold inputLoad
  refine .bind (returns_get h) fun s0 h0 => ?_
  rw [h.mode_eq, h.delimiter_eq]
  refine .bind (returns_binary h0 false) fun s1 h1 => ?_
  refine .bind (returns_delimit h1 bar) fun s2 h2 => ?_
  rw [Load.text, append_assoc, cons_append] at h2
  refine .bind (returns_inputUInt32 separates_bar h2) fun s3 h3 => ?_
  refine .bind (returns_skip h3) fun s4 h4 => ?_
  refine .bind (returns_delimit h4 d) fun s5 h5 => ?_
  refine .bind (returns_inputUInt32 hd h5) fun s6 h6 => ?_
  refine .bind (returns_binary h6 m) fun s7 h7 => ?_
  exact .pure load h7

/-- **A type is read back** when it does not contain the delimiter in force. -/
theorem returns_inputType {type old : DistillerType} (hd : d ∉ type.chars)
    (h : s.Shows d w m (type.chars ++ d :: r) st) :
    Returns (inputType old) s type (·.Shows d w m (d :: r) st) := by
  unfold inputType
  refine .bind (returns_get h) fun s0 h0 => ?_
  rw [h.width_eq]
  refine .bind (returns_setW h0 _) fun s1 h1 => ?_
  refine .bind (returns_inputString h1 hd (by decide)) fun s2 h2 => ?_
  refine .bind (returns_setW h2 w) fun s3 h3 => ?_
  exact .pure type h3

structure BasicDistiller.Clean (record : BasicDistiller) : Prop where
  ip_noSlash : slash ∉ record.rid.ipAddress.chars
  type_noBar : bar ∉ record.type.chars

/-- **A clean record is read back.** -/
theorem returns_inputDistiller {record old : BasicDistiller} (hc : record.Clean)
    (hd : Separates d) (h : s.Shows d w m (record.text ++ d :: r) st) :
    Returns (inputDistiller old) s record (·.Shows d w m (d :: r) st) := by
  unfold inputDistiller
  refine .bind (returns_get h) fun s0 h0 => ?_
  rw [h.delimiter_eq]
  refine .bind (returns_delimit h0 bar) fun s1 h1 => ?_
  rw [BasicDistiller.text, append_assoc, cons_append, append_assoc, cons_append] at h1
  refine .bind (returns_inputRemoteID hc.ip_noSlash separates_bar h1) fun s2 h2 => ?_
  refine .bind (returns_skip h2) fun s3 h3 => ?_
  refine .bind (returns_inputType hc.type_noBar h3) fun s4 h4 => ?_
  refine .bind (returns_skip h4) fun s5 h5 => ?_
  refine .bind (returns_delimit h5 d) fun s6 h6 => ?_
  refine .bind (returns_inputLoad hd h6) fun s7 h7 => ?_
  exact .pure record h7

/-! ## Any input -/

lemma reads_inputRemoteID (rid : RemoteID) : Within Reads (inputRemoteID rid) := by
  refine .bind .get fun s => .bind (reads_binary _) fun _ => .bind (reads_delimit _) fun _ =>
    .bind (reads_setW _) fun _ => .bind (reads_inputString _) fun ipAddress => ?_
  exact .bind reads_skip fun _ => .bind (reads_delimit _) fun _ => .bind (reads_inputInt _) fun _ =>
    .bind (reads_setW _) fun _ => .bind (reads_binary _) fun _ => .pure _

lemma reads_inputLoad (load : Load) : Within Reads (inputLoad load) := by
  refine .bind .get fun s => .bind (reads_binary _) fun _ => .bind (reads_delimit _) fun _ =>
    .bind (reads_inputUInt32 _) fun latency => ?_
  exact .bind reads_skip fun _ => .bind (reads_delimit _) fun _ =>
    .bind (reads_inputUInt32 _) fun _ => .bind (reads_binary _) fun _ => .pure _

lemma reads_inputType (type : DistillerType) : Within Reads (inputType type) :=
  .bind .get fun _ => .bind (reads_setW _) fun _ => .bind (reads_inputString _) fun _ =>
    .bind (reads_setW _) fun _ => .pure _

lemma inputRemoteID_noSlash {rid old : RemoteID} {s' : IStream}
    (h : inputRemoteID old s = some (rid, s')) (hold : slash ∉ old.ipAddress.chars) :
    slash ∉ rid.ipAddress.chars := by
  simp only [inputRemoteID, binary, delimit, setW, run_iff] at h
  obtain ⟨ip, _, hip, _, _, _, _, _, _, rfl, _⟩ := h
  intro hmem
  rcases mem_append.mp (inputString_subset hip hmem) with hmem | hmem
  · exact hold hmem
  · simpa using mem_takeWhile_imp hmem

lemma inputType_subset {type old : DistillerType} {s' : IStream}
    (h : inputType old s = some (type, s')) :
    type.chars ⊆ old.chars ++ s.rest.takeWhile (· ≠ s.delimiter) := by
  simp only [inputType, setW, run_iff] at h
  obtain ⟨string, _, hs, rfl, _⟩ := h
  have hsu := inputString_subset hs
  exact hsu

end Input

end Glomop
