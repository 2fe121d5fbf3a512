import Glomop.Frontend.Dispatch

/-!
# Replies to Wingman clients

`wing_writeback_reply` sends a header of five words, items of metadata and the distilled data.  An
item has a type and a length of 16 bits each in front of its value, and the code cuts the page type
and the length of an aggregator list to 16 bits.

`Framed`: what is sent reads as a header, a whole number of items and the data, and the items tell
what the request and the distiller's headers say.
-/

namespace Glomop.Frontend.Wing

open Lib Headers List Option

/-! ## The function -/

/-- `version_check(version, CLIENT_VERSION_NEWAGG)`. -/
def newAgg (version : UInt32) : Bool := 0x01050300 ≤ version &&& 0xffffff00

/-- The fields of a `wing_request` that the reply is made from.  `wing_dispatch_request` keeps an
aggregator list only for an older client. -/
structure WingRequest where
  version : UInt32
  request_id : UInt32
  in_nocache : Bool
  agglistdata : Bytes
  pxy_hdrs : Bytes
  pxy_data : Bytes
  length_lt : pxy_data.length < 2 ^ 32
  old_of_agglist : agglistdata ≠ [] → newAgg version = false

/-- `CONTENT_TYPE_WINGPREFIX`, `x-wingman/`. -/
def wingman : Bytes := [120, 45, 119, 105, 110, 103, 109, 97, 110, 47]

def pragma : Bytes := [112, 114, 97, 103, 109, 97]

def noCache : Bytes := [110, 111, 45, 99, 97, 99, 104, 101]

/-- `endptr` after `strtoul(text, &endptr, 10)`. -/
def strtoulEnd (text : Bytes) : Bytes := if scanUInt32 text = none then text else numberRest text

/-- `content_type_int`, if the client can understand the type: the number has to end with the
value. -/
def contentTypeInt (hdrs : Bytes) : Option UInt32 :=
  (getHeaderValue hdrs Dispatch.contentType).bind fun val =>
    let content_type := (cString hdrs).drop (val.hdr + val.totallen)
    let number := content_type.drop wingman.length
    if startsWith wingman content_type ∧
        (strtoulEnd number).length + val.value.length = content_type.length then
      some ((scanUInt32 number).getD 0)
    else none

/-- `flags.in_nocache`, once the distiller's headers have been read. -/
def inNocache (req : WingRequest) : Bool :=
  req.in_nocache || (getHeaderValue req.pxy_hdrs pragma).any fun val =>
    startsWith noCache ((cString req.pxy_hdrs).drop (val.hdr + val.totallen))

/-- `(n >> 8) & 0xff` and `n & 0xff`. -/
def cut16 (n : ℕ) : Bytes := [UInt8.ofNat (n / 256), UInt8.ofNat n]

def metadatasize (req : WingRequest) (content_type_int : UInt32) : ℕ :=
  (if inNocache req then 8 else 0) + (if content_type_int ≠ 0 then 6 else 0) +
    if newAgg req.version = false ∧ req.agglistdata ≠ [] then req.agglistdata.length + 4 else 0

def metadata (req : WingRequest) (content_type_int : UInt32) : Bytes :=
  (if inNocache req then [0, 1, 0, 4, 0, 0, 0, 1] else []) ++
    (if content_type_int ≠ 0 then [0, 3, 0, 2] ++ cut16 content_type_int.toNat else []) ++
    if newAgg req.version = false ∧ req.agglistdata ≠ [] then
      [0, 4] ++ cut16 req.agglistdata.length ++ req.agglistdata
    else []

/-- The five words of a `gl_hdr`; `comp` is 0. -/
def glHdr (req : WingRequest) (metadatasize : ℕ) : Bytes :=
  IStream.htonl req.version ++ IStream.htonl req.request_id ++
    IStream.htonl (.ofNat metadatasize) ++ IStream.htonl (.ofNat req.pxy_data.length) ++
    IStream.htonl 0

/-- What is sent; `none` if the content type cannot be handled.
`winggo.c`. -/
def wingWritebackReply (req : WingRequest) : Option Bytes :=
  (contentTypeInt req.pxy_hdrs).map fun n =>
    glHdr req (metadatasize req n) ++ (metadata req n ++ req.pxy_data)

/-! ## Framing -/

structure MetaItem where
  type : ℕ
  value : Bytes
  fits : type < 2 ^ 16 ∧ value.length < 2 ^ 16

def MetaItem.bytes (i : MetaItem) : Bytes := cut16 i.type ++ cut16 i.value.length ++ i.value

/-- The value of the first item of a type. -/
def valueOf (type : ℕ) (items : List MetaItem) : Option Bytes :=
  (items.find? (·.type = type)).map (·.value)

/-- The number in the first two bytes. -/
def number (value : Bytes) : ℕ := 256 * (value.getD 0 0).toNat + (value.getD 1 0).toNat

/-- `sent` is a header, items and the data, with the sizes of both.  The items tell whether the page
may be kept, its type `n`, which is `PageTypeRegular` if there is no item for it, and the aggregator
list. -/
def Framed (req : WingRequest) (n : UInt32) (sent : Bytes) : Prop :=
  ∃ items : List MetaItem, (items.flatMap (·.bytes)).length < 2 ^ 32 ∧
    sent = glHdr req (items.flatMap (·.bytes)).length ++
      (items.flatMap (·.bytes) ++ req.pxy_data) ∧
    valueOf 1 items = (if inNocache req then some [0, 0, 0, 1] else none) ∧
    (valueOf 3 items).elim 0 number = n.toNat ∧ (valueOf 4 items).getD [] = req.agglistdata

section Framing

variable {req : WingRequest} {n : UInt32} {sent : Bytes}

lemma number_lt (value : Bytes) : number value < 2 ^ 16 := by
  have ha := (value.getD 0 0).toNat_lt
  have hb := (value.getD 1 0).toNat_lt
  unfold number
  omega

lemma lt_of_framed (h : Framed req n sent) :
    n.toNat < 2 ^ 16 ∧ req.agglistdata.length < 2 ^ 16 := by
  obtain ⟨items, -, -, -, hty, hag⟩ := h
  rw [← hty, ← hag]
  constructor
  · cases valueOf 3 items with
    | none => decide
    | some value => exact number_lt value
  · cases hv : valueOf 4 items with
    | none => decide
    | some value =>
      obtain ⟨i, -, rfl⟩ := map_eq_some_iff.mp hv
      exact i.fits.2

lemma metadatasize_eq : metadatasize req n = (metadata req n).length := by
  unfold metadatasize metadata cut16
  split_ifs <;> simp <;> omega

/-- The items of a reply with sizes that fit. -/
def itemsOf (req : WingRequest) (n : UInt32) (hn : (cut16 n.toNat).length < 2 ^ 16)
    (ha : req.agglistdata.length < 2 ^ 16) : List MetaItem :=
  (if inNocache req then [⟨1, [0, 0, 0, 1], by decide⟩] else []) ++
    (if n ≠ 0 then [⟨3, cut16 n.toNat, by decide, hn⟩] else []) ++
    if newAgg req.version = false ∧ req.agglistdata ≠ [] then
      [⟨4, req.agglistdata, by decide, ha⟩]
    else []

lemma framed_of_lt (hn : n.toNat < 2 ^ 16) (ha : req.agglistdata.length < 2 ^ 16) :
    Framed req n (glHdr req (metadatasize req n) ++ (metadata req n ++ req.pxy_data)) := by
  have hnum : number (cut16 n.toNat) = n.toNat := by
    simp [number, cut16]
    omega
  have hm : (itemsOf req n (by simp [cut16]) ha).flatMap (·.bytes) = metadata req n := by
    unfold itemsOf metadata
    split_ifs <;> simp [MetaItem.bytes, cut16]
  refine ⟨itemsOf req n _ ha, ?_, by rw [hm, metadatasize_eq], ?_, ?_, ?_⟩
  · rw [hm, ← metadatasize_eq, metadatasize]
    split_ifs <;> omega
  all_goals simp only [itemsOf, valueOf, and_iff_right_of_imp req.old_of_agglist]
  · split_ifs <;> simp
  all_goals split_ifs <;> simp_all

end Framing

/-- A reply of the type `x-wingman/` with some digits. -/
def pageRequest (digits : Bytes) : WingRequest where
  version := 0
  request_id := 0
  in_nocache := false
  agglistdata := []
  pxy_hdrs := Dispatch.contentType ++ 58 :: wingman ++ digits
  pxy_data := []
  length_lt := by decide
  old_of_agglist hne := absurd rfl hne

/-- **Framing.** A reply that is sent is framed if and only if its page type and the length of the
aggregator list have 16 bits. -/
theorem reply_framed_iff (req : WingRequest) (n : UInt32) (sent : Bytes)
    (hn : contentTypeInt req.pxy_hdrs = some n) (hs : wingWritebackReply req = some sent) :
    Framed req n sent ↔ n.toNat < 2 ^ 16 ∧ req.agglistdata.length < 2 ^ 16 := by
  rw [wingWritebackReply, hn] at hs
  cases hs
  exact ⟨lt_of_framed, fun h => framed_of_lt h.1 h.2⟩

theorem reply_framed_one : ∃ sent, wingWritebackReply (pageRequest [49]) = some sent ∧
    Framed (pageRequest [49]) 1 sent :=
  ⟨_, rfl, (reply_framed_iff (pageRequest [49]) 1 _ (by decide) rfl).mpr ⟨by decide, by decide⟩⟩

/-- The type 65537 is sent as 1. -/
theorem reply_type_cut : ∃ sent, wingWritebackReply (pageRequest [54, 53, 53, 51, 55]) = some sent ∧
    contentTypeInt (pageRequest [54, 53, 53, 51, 55]).pxy_hdrs = some 65537 ∧
    ¬ Framed (pageRequest [54, 53, 53, 51, 55]) 65537 sent :=
  ⟨_, rfl, by decide, fun hf => absurd (lt_of_framed hf).1 (by decide)⟩

end Glomop.Frontend.Wing
