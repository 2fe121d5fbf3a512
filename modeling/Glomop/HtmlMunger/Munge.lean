import Glomop.Frontend.Headers
import Glomop.Frontend.UrlMagic

/-!
# The HTML munger

The distiller for HTML puts a link to the original image next to each image of a page; for an image
inside a link, its own link is queued until the enclosing one has ended.  The queue is a static
variable that is not reset at the start of a page (`unclosed_link_leaks`).  The SGML lexer is a
parameter.  Source: `munge.h`, `munge.c`.
-/

namespace Glomop.HtmlMunger

open Lib Rpc Frontend Headers UrlMagic Option

def isAlpha (c : UInt8) : Bool := (65 ≤ c && c ≤ 90) || (97 ≤ c && c ≤ 122)

/-- Whether `strncasecmp` returns 0.  It does so, too, when one of the strings ends. -/
def strncasecmp (s1 s2 : Bytes) (s : ℕ) : Bool :=
  ((s1.zip s2).take s).all fun c => lower c.1 == lower c.2

/-- Whether `strcasecmp` returns 0. -/
def strcasecmp (s1 s2 : Bytes) : Bool := s1.map lower == s2.map lower

/-- An attribute of a tag.  `struct HtmlTagDescr`. -/
structure Attrib where
  attr_name : Bytes
  attr_val : Bytes

def attribIndex (attrib_name : Bytes) (attribs : List Attrib) : Option ℕ :=
  attribs.findIdx? fun a => strcasecmp attrib_name a.attr_name

/-- A URL without `://` is a partial one.
`munge_magic.c`. -/
def isHttpGet (url : Bytes) : Bool :=
  if url.tails.any ([58, 47, 47].isPrefixOf ·) then
    strncasecmp url [104, 116, 116, 112, 58, 47, 47] 6
  else true

/-- A tag's name begins, in its first `n` characters, like `pattern`, and has no letter behind the
`len`-th. -/
def isTag (pattern : Bytes) (n len : ℕ) (tagname : Bytes) : Bool :=
  strncasecmp tagname pattern n && len ≤ tagname.length && !isAlpha (tagname.getD len 0)

/-- The test for `<INPUT`, of which only the first two characters are compared. -/
def isInput (tagname : Bytes) : Bool := isTag [60, 73, 78, 80, 85, 84] 2 6 tagname

def isLinkStart (tagname : Bytes) : Bool := isTag [60, 65] 2 2 tagname

def isLinkEnd (tagname : Bytes) : Bool := isTag [60, 47, 65] 3 3 tagname

def isImage (tagname : Bytes) : Bool := isTag [60, 73, 77, 71] 4 4 tagname

def attribText (i : ℕ) (a : Attrib) : Bytes :=
  (if i = 0 then [] else [32]) ++ a.attr_name ++
    (if a.attr_val = [] then []
    else if a.attr_val.headD 0 = 39 then 61 :: a.attr_val
    else 61 :: 34 :: a.attr_val ++ [34])

def attribsText (attribs : List Attrib) : Bytes := (attribs.mapIdx attribText).flatten

/-! ## Form fields -/

section Arguments

variable {D : Type} [Zero D] [DecidableEq D] (printDouble : D → Bytes)
  (scanDouble : Bytes → Option D)

def argInt (a : Argument D) : Int32 :=
  match a.value with
  | .typeInt v => v
  | _ => 0

def argString (a : Argument D) : Bytes :=
  match a.value with
  | .typeString s => s.chars
  | _ => []

def argDouble (a : Argument D) : D :=
  match a.value with
  | .typeDouble d => d
  | _ => 0

def atoi (s : Bytes) : Int32 := (scanInt s).getD 0

structure Field where
  button : Bool
  val : Option Bytes
  id : Option Bytes

def Field.attrib (f : Field) (a : Attrib) : Field :=
  if strcasecmp a.attr_name [84, 89, 80, 69] then
    { f with button := !strcasecmp a.attr_val [116, 101, 120, 116] }
  else if strcasecmp a.attr_name [84, 82, 65, 78, 83, 69, 78, 68, 86, 65, 76] then
    if a.attr_val ≠ [] then { f with val := some a.attr_val } else f
  else if strcasecmp a.attr_name [84, 82, 65, 78, 83, 69, 78, 68, 73, 68] then
    if 2 ≤ a.attr_val.length then { f with id := some a.attr_val } else f
  else f

/-- ` CHECKED` -/
def checkedText (checked : Bool) : Bytes :=
  if checked then [32, 67, 72, 69, 67, 75, 69, 68] else []

def fieldText (f : Field) (type : UInt8) (a : Argument D) : Option Bytes :=
  if !f.button then
    let text :=
      if type = 105 then printInt (argInt a)
      else if type = 115 then argString a
      else if type = 100 then printDouble (argDouble a)
      else []
    some ([32, 86, 65, 76, 85, 69, 61, 34] ++ text ++ [34])
  else
    match f.val with
    | none => some []
    | some val =>
      if type = 105 then some (checkedText (atoi val = argInt a))
      else if type = 115 then some (checkedText (argString a = val))
      else if type = 100 then (scanDouble val).map fun d => checkedText (d = argDouble a)
      else some []

def handleFormField (tagname : Bytes) (attribs : List Attrib) (args : List (Argument D)) :
    Option Bytes :=
  let f := attribs.foldl Field.attrib ⟨false, none, none⟩
  let text := tagname ++ attribsText attribs
  match f.id with
  | none => some (text ++ [62])
  | some id =>
    match args.find? (·.id = (atoi (id.drop 1)).toUInt32) with
    | none => some (text ++ [62])
    | some a =>
      (fieldText printDouble scanDouble f (id.headD 0) a).map fun field =>
        text ++ id.headD 0 :: field ++ [62]

end Arguments

/-! ## Tags -/

/-- Where the icon goes. -/
inductive IconStringPos
  | no_icon
  | at_beginning
  | after_head
  | in_body
  | in_noframes
deriving DecidableEq

def ICON_STRING : Bytes :=
  [60, 65, 32, 104, 114, 101, 102, 61, 34, 104, 116, 116, 112, 58, 47, 47, 116, 114, 97, 110,
   115, 101, 110, 100, 46, 67, 83, 46, 66, 101, 114, 107, 101, 108, 101, 121, 46, 69, 68, 85, 47,
   112, 114, 101, 102, 115, 46, 104, 116, 109, 108, 34, 62, 60, 73, 77, 71, 32, 65, 76, 73, 71,
   78, 61, 34, 114, 105, 103, 104, 116, 34, 32, 66, 79, 82, 68, 69, 82, 61, 48, 32, 83, 82, 67,
   61, 34, 104, 116, 116, 112, 58, 47, 47, 116, 114, 97, 110, 115, 101, 110, 100, 46, 67, 83, 46,
   66, 101, 114, 107, 101, 108, 101, 121, 46, 69, 68, 85, 47, 108, 111, 103, 111, 50, 46, 103,
   105, 102, 42, 94, 105, 49, 61, 49, 94, 34, 32, 87, 73, 68, 84, 72, 61, 34, 52, 53, 34, 32, 72,
   69, 73, 71, 72, 84, 61, 34, 50, 53, 34, 62, 60, 47, 65, 62, 60, 80, 62, 60, 66, 82, 32, 67,
   76, 69, 65, 82, 61, 34, 66, 79, 84, 72, 34, 62]

/-- The variables of the munger: the output, the static variables of `process_tag`, and
`where_string`. -/
structure Munger where
  out : Bytes
  in_link : Bool
  image_queue : List Bytes
  where_string : IconStringPos

/-- `in_link` after a tag. -/
def linkAfter (in_link : Bool) (tagname : Bytes) (attribs : List Attrib) : Bool :=
  let in_link := in_link ||
    (isLinkStart tagname && attribs.any fun a => strcasecmp a.attr_name [72, 82, 69, 70])
  if isLinkEnd tagname then false else in_link

/-- `<A href="` -/
def linkOpen : Bytes := [60, 65, 32, 104, 114, 101, 102, 61, 34]

def links (image_queue : List Bytes) : Bytes :=
  image_queue.flatMap fun url =>
    linkOpen ++ url ++ [34, 62, 38, 35, 49, 54, 52, 59, 60, 47, 65, 62]

section Tags

variable {D : Type} [Zero D] [DecidableEq D]

structure Env (D : Type) where
  printDouble : D → Bytes
  scanDouble : Bytes → Option D

/-- What is in the variables of `from_magic` and in `al` before they are set. -/
structure Memory (D : Type) where
  locals : Locals D
  stack : ArgumentList D

variable (env : Env D) (mem : Memory D)

/-- The list `al` with one `int` argument, whose value is 1. -/
def oneArgument (id : UInt32) (al : ArgumentList D) : ArgumentList D where
  nargs := 1
  arg := al.arg.modify 0 fun slot => (slot.setInt 1).setID id
  arg_length := by rw [List.length_modify, al.arg_length]
  nargs_le := one_le_maxArgs

/-- `to_magic` with that list. -/
def magic (id : UInt32) (url : Bytes) : Bytes :=
  (toMagic env.printDouble url [⟨id, .typeInt 1⟩]).1

/-- An image's attributes and `al` after the `src` at `s` has been made magic, for image maps
(`FRONT_ISMAP`) and for images without a size (`FRONT_RESIZE`). -/
def magify (s : ℕ) (attribs : List Attrib) : List Attrib × Option (ArgumentList D) :=
  let r : List Attrib × Option (ArgumentList D) :=
    if (attribIndex [105, 115, 109, 97, 112] attribs).isSome ||
        (attribIndex [117, 115, 101, 109, 97, 112] attribs).isSome then
      (attribs.modify s fun a => { a with attr_val := magic env 8 a.attr_val },
        some (oneArgument 8 mem.stack))
    else (attribs, none)
  if (attribIndex [119, 105, 100, 116, 104] r.1).isNone &&
      (attribIndex [104, 101, 105, 103, 104, 116] r.1).isNone then
    (r.1.modify s fun a => { a with attr_val := magic env 2 a.attr_val },
      some (oneArgument 2 mem.stack))
  else r

/-- The URL without magic, with `FRONT_NO_DISTILL`. -/
def originalUrl (al : Option (ArgumentList D)) (src_url : Bytes) : Option Bytes :=
  let url :=
    if isMagic src_url then
      al.bind fun al => (fromMagic env.scanDouble mem.locals al src_url).map (·.1)
    else some src_url
  url.map (magic env 1)

/-- What is written for an image with its `src` at `s`, and the link that is queued.
`munge_magic.c` `process_tag`, the branch for `<IMG`. -/
def imageText (in_link : Bool) (tagname : Bytes) (attribs : List Attrib) (s : ℕ) :
    Option (Bytes × Option Bytes) :=
  let (attribs, al) := magify env mem s attribs
  let src_url := (attribs.reverse.find? fun a =>
    strcasecmp a.attr_name [115, 114, 99]).elim [] Attrib.attr_val
  (originalUrl env mem al src_url).map fun url =>
    if in_link then (tagname ++ attribsText attribs ++ [62], some url)
    else
      (linkOpen ++ url ++ [34, 62] ++ tagname ++ [32, 98, 111, 114, 100, 101, 114, 61, 48, 32] ++
        attribsText attribs ++ [62, 60, 47, 97, 62], none)

/-- What is written for a tag that is not a form field, and the link that is queued.  The `src` of
an image without one is looked for in front of the attributes.
`munge_magic.c` `process_tag`. -/
def tagText (in_link : Bool) (tagname : Bytes) (attribs : List Attrib) :
    Option (Bytes × Option Bytes) :=
  let plain : Bytes × Option Bytes := (tagname ++ attribsText attribs ++ [62], none)
  if isImage tagname then
    match attribIndex [115, 114, 99] attribs with
    | none => none
    | some s =>
      if isHttpGet (attribs[s]?.elim [] Attrib.attr_val) then
        imageText env mem in_link tagname attribs s
      else some plain
  else some plain

/-- The icon, where it belongs behind this tag.
`munge_magic.c` `process_tag`, its end. -/
def iconAfter (where_string : IconStringPos) (tagname : Bytes) : Bytes × IconStringPos :=
  if where_string = .after_head ∧ strncasecmp tagname [60, 47, 72, 69, 65, 68] 6 then
    (ICON_STRING, .no_icon)
  else if where_string = .in_body ∧ strncasecmp tagname [60, 66, 79, 68, 89] 5 then
    (ICON_STRING, .no_icon)
  else if where_string = .in_noframes ∧
      strncasecmp tagname [60, 78, 79, 70, 82, 65, 77, 69, 83] 9 then
    (ICON_STRING, .no_icon)
  else ([], where_string)

def refines (in_link : Bool) (attribs : List Attrib) : Bool :=
  !in_link && (attribIndex [110, 111, 114, 101, 102, 105, 110, 101] attribs).isNone

def processTag (args : List (Argument D)) (tagname : Bytes) (attribs : List Attrib) (m : Munger) :
    Option Munger :=
  if isInput tagname then
    (handleFormField env.printDouble env.scanDouble tagname attribs args).map fun text =>
      { m with out := m.out ++ text }
  else
    let in_link := linkAfter m.in_link tagname attribs
    (tagText env mem in_link tagname attribs).map fun written =>
      let image_queue := m.image_queue ++ written.2.toList
      let icon := iconAfter m.where_string tagname
      if image_queue ≠ [] ∧ refines in_link attribs then
        { out := m.out ++ written.1 ++ links image_queue ++ icon.1
          in_link := in_link
          image_queue := []
          where_string := icon.2 }
      else
        { out := m.out ++ written.1 ++ icon.1
          in_link := in_link
          image_queue := image_queue
          where_string := icon.2 }

end Tags

/-! ## Callbacks of the lexer -/

/-- `sgml_lex.h` `SGML_TokType`. -/
inductive TokType
  | eof | data | start | end_ | tagc | attrname | name | number | nmtoken | literal | geref
  | numcharref | refc | pi | markupDecl | comment | limitation | error | warning | maxtok

structure Token where
  type : TokType
  string : Bytes
  beyond : Bytes

/-- What `append_string` writes for a token; for an empty one, whatever follows it. -/
def Token.text (tok : Token) : Bytes :=
  if tok.string = [] then cString tok.beyond
  else
    cString tok.string ++ List.replicate (tok.string.length - (cString tok.string).length) 0

/-- An attribute's value, without white space and quotes around it.  If it is a single quote its
length is negative, and if it is white space with a quote behind it the end is looked for in front
of it.  `callback`. -/
def Token.attrValue (tok : Token) : Option Bytes :=
  let lslen := (tok.string.takeWhile isSpace).length
  let lslen := if (tok.string ++ tok.beyond).getD lslen 0 = 34 then lslen + 1 else lslen
  let tslen := 1 + min (tok.string.reverse.takeWhile isSpace).length (tok.string.length - lslen - 1)
  let tslen := if tok.string.getD (tok.string.length - tslen) 0 = 34 then tslen else tslen - 1
  if lslen + tslen ≤ tok.string.length then
    some (cString ((tok.string.drop lslen).take (tok.string.length - tslen - lslen)))
  else none

inductive Action
  | append (text : Bytes)
  | tag (tagname : Bytes) (attribs : List Attrib)

/-- The variables of the callback.  `attr_name` is that of the next attribute. -/
structure Parse where
  attribs : List Attrib
  attr_name : Bytes
  next_str_is_attrval : Bool
  next_str_is_attrname : Bool
  in_html_tag : Bool
  tagname : Bytes
  sgml_error : Bool

def errorLimit : ℕ := 1007

/-- A token that is not an attribute's value.  `callback`, the `switch`. -/
def Parse.other (p : Parse) (tok : Token) : Option (Parse × List Action) :=
  match tok.type with
  | .attrname =>
    if tok.string = [] then some ({ p with next_str_is_attrname := true }, [])
    else
      let name := (tok.string.reverse.dropWhile fun c => isSpace c || c == 61).reverse
      if name = [] then none
      else
        some ({ p with
          attr_name := cString name
          next_str_is_attrval := true
          next_str_is_attrname := false }, [])
  | .name | .nmtoken | .literal =>
    if p.next_str_is_attrname then
      some ({ p with
        next_str_is_attrname := false
        attribs := p.attribs ++ [⟨cString tok.string, []⟩] }, [])
    else some (p, [.append tok.text])
  | .warning | .error | .limitation =>
    if tok.string.length ≤ errorLimit then
      some ({ p with sgml_error := true }, [.append [76, 65, 77, 69]])
    else none
  | .tagc =>
    some ({ p with in_html_tag := false },
      if p.in_html_tag then [.tag p.tagname p.attribs] else [.append tok.text])
  | .start | .end_ =>
    some ({ p with tagname := cString tok.string, in_html_tag := true, attribs := [] }, [])
  | .comment | .data | .geref | .refc | .markupDecl => some (p, [.append tok.text])
  | .eof | .number | .numcharref | .pi | .maxtok => some (p, [])

/-- One round of the callback's loop.  `callback`. -/
def Parse.token (p : Parse) (tok : Token) : Option (Parse × List Action) :=
  if p.sgml_error then some (p, [])
  else if p.next_str_is_attrval then
    (if tok.string = [] then some [] else tok.attrValue).map fun val =>
      ({ p with next_str_is_attrval := false, attribs := p.attribs ++ [⟨p.attr_name, val⟩] }, [])
  else p.other tok

def callback (tokens : List Token) : Option (List Action) :=
  (tokens.foldlM (fun r tok => (Parse.token r.1 tok).map fun r' => (r'.1, r.2 ++ r'.2))
    ((⟨[], [], false, false, false, [], false⟩ : Parse), ([] : List Action))).map (·.2)

/-! ## Pages -/

/-- The place of the icon that the tags of a page give, if it has no body.  `find_where_string`,
behind the loop. -/
def iconPlace (head_end : ℕ) (frameset noframes : Bool) : IconStringPos :=
  if noframes then .in_noframes
  else if frameset then .no_icon
  else if head_end ≠ 0 then .after_head
  else .at_beginning

/-- The loop of `find_where_string`, at the position `i` of the data.  The byte behind them, which
`strncasecmp` may come to, is taken for NUL. -/
def findFrom (i head_end : ℕ) (frameset noframes : Bool) : Bytes → IconStringPos
  | [] => iconPlace head_end frameset noframes
  | c :: data =>
    let at_ := cString (c :: data)
    if c ≠ 60 then findFrom (i + 1) head_end frameset noframes data
    else if strncasecmp [60, 47, 72, 69, 65, 68] at_ 6 then
      findFrom (i + 1) i frameset noframes data
    else if strncasecmp [60, 66, 79, 68, 89] at_ 5 then .in_body
    else if strncasecmp [60, 78, 79, 70, 82, 65, 77, 69, 83] at_ 9 then
      findFrom (i + 1) head_end frameset true data
    else if strncasecmp [60, 70, 82, 65, 77, 69, 83, 69, 84] at_ 9 then
      findFrom (i + 1) head_end true noframes data
    else findFrom (i + 1) head_end frameset noframes data

def findWhereString (data : Bytes) : IconStringPos := findFrom 0 0 false false data

/-- What `process_tag` keeps from page to page. -/
structure Statics where
  in_link : Bool
  image_queue : List Bytes
deriving DecidableEq

section Pages

variable {D : Type} [Zero D] [DecidableEq D] (env : Env D) (lex : Bytes → List (List Token))

structure Page (D : Type) where
  data : Bytes
  args : List (Argument D)

def actions (data : Bytes) : Option (List Action) :=
  ((lex data).mapM callback).map List.flatten

def perform (mem : Memory D) (args : List (Argument D)) (m : Munger) : Action → Option Munger
  | .append text => some { m with out := m.out ++ text }
  | .tag tagname attribs => processTag env mem args tagname attribs m

/-- The place of the icon, unless an argument `FRONT_SHOW_ICON` says not to show it. -/
def showIcon (page : Page D) : IconStringPos :=
  if page.args.any fun a => a.id = 6 && argInt a = 0 then .no_icon else findWhereString page.data

/-- The munger at the start of a page, of which `process_tag` is told.  `DistillerMain`. -/
def pageStart (s : Statics) (page : Page D) : Munger :=
  if showIcon page = .at_beginning then ⟨ICON_STRING, false, s.image_queue, .no_icon⟩
  else ⟨[], false, s.image_queue, showIcon page⟩

/-- The output for a page, and what `process_tag` keeps. -/
def distillerMain (mem : Memory D) (s : Statics) (page : Page D) : Option (Bytes × Statics) :=
  (actions lex page.data).bind fun actions =>
    (actions.foldlM (perform env mem page.args) (pageStart s page)).map fun m =>
      (m.out, ⟨m.in_link, m.image_queue⟩)

/-- What `process_tag` keeps after some pages, from the start of the munger. -/
def after (pages : List (Memory D × Page D)) : Option Statics :=
  pages.foldlM (fun s page => (distillerMain env lex page.1 s page.2).map (·.2)) ⟨false, []⟩

end Pages

/-! ## What was not set -/

section Memory

variable {D : Type} (env : Env D) (mem mem' : Memory D)

lemma magify_memory (s : ℕ) (attribs : List Attrib) :
    (magify env mem s attribs).1 = (magify env mem' s attribs).1 ∧
      (magify env mem s attribs).2.isSome = (magify env mem' s attribs).2.isSome := by
  unfold magify
  dsimp only
  split_ifs <;> exact ⟨rfl, rfl⟩

lemma originalUrl_memory {al al' : Option (ArgumentList D)} (hal : al.isSome = al'.isSome)
    (src_url : Bytes) : originalUrl env mem al src_url = originalUrl env mem' al' src_url := by
  unfold originalUrl
  split_ifs
  · cases al with
    | none =>
      have ha' : al' = none := by simpa using hal.symm
      rw [ha']
      rfl
    | some list =>
      obtain ⟨list', rfl⟩ := isSome_iff_exists.mp hal.symm
      simp only [bind_some]
      rw [fromMagic_url env.scanDouble mem.locals mem'.locals list list' src_url]
  · rfl

lemma imageText_memory (in_link : Bool) (tagname : Bytes) (attribs : List Attrib) (s : ℕ) :
    imageText env mem in_link tagname attribs s = imageText env mem' in_link tagname attribs s := by
  unfold imageText
  dsimp only
  obtain ⟨ha, hal⟩ := magify_memory env mem mem' s attribs
  rw [ha, originalUrl_memory env mem mem' hal]

lemma tagText_memory : tagText env mem = tagText env mem' := by
  funext in_link tagname attribs
  simp only [tagText, imageText_memory env mem mem']

variable [Zero D] [DecidableEq D]

lemma perform_memory (args : List (Argument D)) : perform env mem args = perform env mem' args := by
  funext m a
  cases a with
  | append text => rfl
  | tag tagname attribs => simp only [perform, processTag, tagText_memory env mem mem']

end Memory

/-! ## Two histories -/

/-- The queue is written at some tag of a page; `in_link` is the state in front of them. -/
def emitsFrom (in_link : Bool) : List Action → Bool
  | [] => false
  | .append _ :: actions => emitsFrom in_link actions
  | .tag tagname attribs :: actions =>
    if isInput tagname then emitsFrom in_link actions
    else
      refines (linkAfter in_link tagname attribs) attribs ||
        emitsFrom (linkAfter in_link tagname attribs) actions

/-- A page has a tag at which the queue is written: one outside links, without the attribute
`norefine`, that is not taken for a form field. -/
def Emits (lex : Bytes → List (List Token)) (data : Bytes) : Prop :=
  ((actions lex data).elim false (emitsFrom false)) = true

@[simp] lemma links_nil : links [] = [] := rfl

lemma links_append (q q' : List Bytes) : links (q ++ q') = links q ++ links q' :=
  List.flatMap_append

/-- The same page behind two histories, which have left the queues `q` and `q'`: until the queue is
written the mungers differ in the queue, and afterwards in the output. -/
inductive Differ (q q' : List Bytes) : Bool → Munger → Munger → Prop
  | pending (out : Bytes) (in_link : Bool) (queued : List Bytes) (where_string : IconStringPos) :
      Differ q q' false ⟨out, in_link, q ++ queued, where_string⟩
        ⟨out, in_link, q' ++ queued, where_string⟩
  | written (before behind : Bytes) (in_link : Bool) (queue : List Bytes)
      (where_string : IconStringPos) :
      Differ q q' true ⟨before ++ links q ++ behind, in_link, queue, where_string⟩
        ⟨before ++ links q' ++ behind, in_link, queue, where_string⟩

namespace Differ

variable {q q' : List Bytes} {b : Bool} {m m' : Munger}

lemma in_link_eq (h : Differ q q' b m m') : m.in_link = m'.in_link := by
  cases h <;> rfl

lemma append (h : Differ q q' b m m') (text : Bytes) :
    Differ q q' b { m with out := m.out ++ text } { m' with out := m'.out ++ text } := by
  cases h with
  | pending out in_link queued where_string =>
    exact .pending (out ++ text) in_link queued where_string
  | written before behind in_link queue where_string =>
    have h : Differ q q' true _ _ := written before (behind ++ text) in_link queue where_string
    simpa using h

lemma out_eq_iff (h : Differ q q' b m m') : m.out = m'.out ↔ links q = links q' ∨ b = false := by
  cases h with
  | pending => simp
  | written => simp

end Differ

/-- A munger behind a tag that wrote `written.1` and queued `written.2`. -/
def Munger.tagged (m : Munger) (tagname : Bytes) (attribs : List Attrib)
    (written : Bytes × Option Bytes) : Munger :=
  let in_link := linkAfter m.in_link tagname attribs
  let image_queue := m.image_queue ++ written.2.toList
  let icon := iconAfter m.where_string tagname
  if refines in_link attribs then
    ⟨m.out ++ written.1 ++ links image_queue ++ icon.1, in_link, [], icon.2⟩
  else ⟨m.out ++ written.1 ++ icon.1, in_link, image_queue, icon.2⟩

section Histories

variable {D : Type}

lemma differ_pageStart (s s' : Statics) (page : Page D) :
    Differ s.image_queue s'.image_queue false (pageStart s page) (pageStart s' page) := by
  unfold pageStart
  split_ifs
  · have h : Differ s.image_queue s'.image_queue false _ _ := .pending ICON_STRING false [] .no_icon
    simpa using h
  · have h : Differ s.image_queue s'.image_queue false _ _ := .pending [] false [] (showIcon page)
    simpa using h

lemma pageStart_in_link (s : Statics) (page : Page D) : (pageStart s page).in_link = false := by
  unfold pageStart
  split_ifs <;> rfl

variable [Zero D] [DecidableEq D] (env : Env D) (mem : Memory D)

lemma processTag_eq (args : List (Argument D)) {tagname : Bytes} (hi : isInput tagname = false)
    (attribs : List Attrib) (m : Munger) :
    processTag env mem args tagname attribs m =
      (tagText env mem (linkAfter m.in_link tagname attribs) tagname attribs).map
        (m.tagged tagname attribs) := by
  unfold processTag Munger.tagged
  rw [hi, if_neg Bool.false_ne_true]
  dsimp only
  congr 1
  funext written
  by_cases hq : m.image_queue ++ written.2.toList = []
  · simp [hq]
  · simp [hq]

lemma Differ.tagged {q q' : List Bytes} {b : Bool} {m m' : Munger} (h : Differ q q' b m m')
    (tagname : Bytes) (attribs : List Attrib) (text : Bytes × Option Bytes) :
    Differ q q' (b || refines (linkAfter m.in_link tagname attribs) attribs)
      (m.tagged tagname attribs text) (m'.tagged tagname attribs text) := by
  unfold Munger.tagged
  cases h with
  | pending out in_link queued where_string =>
    cases hr : refines (linkAfter in_link tagname attribs) attribs with
    | true =>
      have h : Differ q q' true _ _ := written (out ++ text.1)
        (links (queued ++ text.2.toList) ++ (iconAfter where_string tagname).1)
        (linkAfter in_link tagname attribs) [] (iconAfter where_string tagname).2
      simpa [hr, links_append] using h
    | false =>
      have h : Differ q q' false _ _ :=
        pending (out ++ text.1 ++ (iconAfter where_string tagname).1)
        (linkAfter in_link tagname attribs) (queued ++ text.2.toList)
        (iconAfter where_string tagname).2
      simpa [hr] using h
  | written before behind in_link queue where_string =>
    -- The queues are equal from here on, and so is what follows in the output.
    cases hr : refines (linkAfter in_link tagname attribs) attribs with
    | true =>
      have h : Differ q q' true _ _ := written before
        (behind ++ text.1 ++ links (queue ++ text.2.toList) ++ (iconAfter where_string tagname).1)
        (linkAfter in_link tagname attribs) [] (iconAfter where_string tagname).2
      simpa [hr] using h
    | false =>
      have h : Differ q q' true _ _ := written before
        (behind ++ text.1 ++ (iconAfter where_string tagname).1)
        (linkAfter in_link tagname attribs) (queue ++ text.2.toList)
        (iconAfter where_string tagname).2
      simpa [hr] using h

lemma Munger.tagged_in_link (m : Munger) (tagname : Bytes) (attribs : List Attrib)
    (text : Bytes × Option Bytes) :
    (m.tagged tagname attribs text).in_link = linkAfter m.in_link tagname attribs := by
  unfold Munger.tagged
  dsimp only
  split_ifs <;> rfl

lemma Differ.foldlM (args : List (Argument D)) {q q' : List Bytes} (acts : List Action) {b : Bool}
    {m m' r : Munger} (h : Differ q q' b m m')
    (hr : acts.foldlM (perform env mem args) m = some r) :
    ∃ r', acts.foldlM (perform env mem args) m' = some r' ∧
      Differ q q' (b || emitsFrom m.in_link acts) r r' := by
  induction acts generalizing b m m' with
  | nil =>
    obtain rfl : m = r := by simpa using hr
    exact ⟨m', rfl, by simpa [emitsFrom] using h⟩
  | cons a acts ih =>
    rw [List.foldlM_cons] at hr
    obtain ⟨m1, hm1, hr⟩ := bind_eq_some_iff.mp hr
    rw [List.foldlM_cons]
    cases a with
    | append text =>
      obtain rfl : _ = m1 := some.inj hm1
      obtain ⟨r', hr', hd⟩ := ih (h.append text) hr
      exact ⟨r', hr', hd⟩
    | tag tagname attribs =>
      change processTag env mem args tagname attribs m = some m1 at hm1
      change ∃ r', (processTag env mem args tagname attribs m' >>= _) = some r' ∧ _
      cases hi : isInput tagname with
      | true =>
        unfold processTag at hm1 ⊢
        rw [hi, if_pos rfl] at hm1 ⊢
        obtain ⟨text, ht, rfl⟩ := map_eq_some_iff.mp hm1
        rw [ht]
        obtain ⟨r', hr', hd⟩ := ih (h.append text) hr
        refine ⟨r', hr', ?_⟩
        simpa [emitsFrom, hi] using hd
      | false =>
        rw [processTag_eq env mem args hi] at hm1 ⊢
        obtain ⟨text, ht, rfl⟩ := map_eq_some_iff.mp hm1
        rw [← h.in_link_eq, ht]
        obtain ⟨r', hr', hd⟩ := ih (h.tagged tagname attribs text) hr
        refine ⟨r', hr', ?_⟩
        rw [Munger.tagged_in_link, Bool.or_assoc] at hd
        simpa [emitsFrom, hi] using hd

variable (lex : Bytes → List (List Token))

lemma distillerMain_differ (mem' : Memory D) (s s' : Statics) (page : Page D)
    {r : Bytes × Statics} (hr : distillerMain env lex mem s page = some r) :
    ∃ r', distillerMain env lex mem' s' page = some r' ∧
      (r.1 = r'.1 ↔ links s.image_queue = links s'.image_queue ∨ ¬ Emits lex page.data) := by
  unfold distillerMain at hr ⊢
  rw [perform_memory env mem' mem]
  obtain ⟨acts, ha, hr⟩ := bind_eq_some_iff.mp hr
  obtain ⟨m, hm, rfl⟩ := map_eq_some_iff.mp hr
  obtain ⟨m', hm', hd⟩ := Differ.foldlM env mem page.args acts (differ_pageStart s s' page) hm
  refine ⟨(m'.out, ⟨m'.in_link, m'.image_queue⟩), by rw [ha, bind_some, hm']; rfl, ?_⟩
  rw [hd.out_eq_iff, Bool.false_or, pageStart_in_link, Emits, ha]
  simp

/-- The output for a page depends on the pages before it.  It is processed behind one history if and
only if it is behind the other; the outputs are the same if and only if both histories have left the
same links or the page has no tag at which the queue is written. -/
theorem output_eq_iff (mem' : Memory D) (pages pages' : List (Memory D × Page D)) (page : Page D) :
    ∀ s ∈ after env lex pages, ∀ s' ∈ after env lex pages',
      ((distillerMain env lex mem s page).isSome = true ↔
          (distillerMain env lex mem' s' page).isSome = true) ∧
        ∀ r ∈ distillerMain env lex mem s page, ∀ r' ∈ distillerMain env lex mem' s' page,
          (r.1 = r'.1 ↔ links s.image_queue = links s'.image_queue ∨ ¬ Emits lex page.data) := by
  rintro s - s' -
  refine ⟨⟨fun h => ?_, fun h => ?_⟩, fun r hr r' hr' => ?_⟩
  · obtain ⟨r, hr⟩ := isSome_iff_exists.mp h
    obtain ⟨r', hr', -⟩ := distillerMain_differ env mem lex mem' s s' page hr
    exact isSome_iff_exists.mpr ⟨r', hr'⟩
  · obtain ⟨r, hr⟩ := isSome_iff_exists.mp h
    obtain ⟨r', hr', -⟩ := distillerMain_differ env mem' lex mem s' s page hr
    exact isSome_iff_exists.mpr ⟨r', hr'⟩
  · obtain ⟨r₁, hr1, hi⟩ := distillerMain_differ env mem lex mem' s s' page hr
    obtain rfl : r₁ = r' := some.inj (hr1.symm.trans hr')
    exact hi

end Histories

/-- `<A HREF="x"><IMG SRC="y">`, a link that is not closed. -/
def unclosedLink : Page Unit where
  data := [60, 65, 32, 72, 82, 69, 70, 61, 34, 120, 34, 62, 60, 73, 77, 71, 32, 83, 82,
    67, 61, 34, 121, 34, 62]
  args := [⟨6, .typeInt 0⟩]

/-- `<P>`, from another user. -/
def paragraph : Page Unit where
  data := [60, 80, 62]
  args := [⟨6, .typeInt 0⟩]

def tagTokens (tagname attr_name attr_val : Bytes) : List Token :=
  [⟨.start, tagname, attr_name⟩, ⟨.attrname, attr_name, attr_val⟩, ⟨.literal, attr_val, [62]⟩,
    ⟨.tagc, [62], []⟩]

def sampleLex (data : Bytes) : List (List Token) :=
  if data = unclosedLink.data then
    [tagTokens [60, 65, 32] [72, 82, 69, 70, 61] [34, 120, 34],
      tagTokens [60, 73, 77, 71, 32] [83, 82, 67, 61] [34, 121, 34]]
  else [[⟨.start, [60, 80], [62]⟩, ⟨.tagc, [62], []⟩]]

def sampleEnv : Env Unit := ⟨fun _ => [], fun _ => none⟩

def sampleMemory : Memory Unit := ⟨sampleLocals, emptyList⟩

/-- What the unclosed link leaves: `y*^i1=1^`. -/
def unclosedStatics : Statics := ⟨true, [[121, 42, 94, 105, 49, 61, 49, 94]]⟩

/-- The unclosed link, behind a paragraph and at the start of the munger. -/
theorem output_eq_iff_sample :
    ∃ s r r', after sampleEnv sampleLex [(sampleMemory, paragraph)] = some s ∧
      distillerMain sampleEnv sampleLex sampleMemory s unclosedLink = some r ∧
      distillerMain sampleEnv sampleLex sampleMemory ⟨false, []⟩ unclosedLink = some r' ∧
      r.1 = r'.1 := by
  have hs : after sampleEnv sampleLex [(sampleMemory, paragraph)] = some ⟨false, []⟩ := by
    decide +kernel
  have hr : (distillerMain sampleEnv sampleLex sampleMemory ⟨false, []⟩ unclosedLink).isSome := by
    decide +kernel
  obtain ⟨r, hr⟩ := isSome_iff_exists.mp hr
  have hi := (output_eq_iff sampleEnv sampleMemory sampleLex sampleMemory
    [(sampleMemory, paragraph)] [] unclosedLink _ hs _ rfl).2 r hr r hr
  exact ⟨_, r, r, hs, hr, hr, hi.mpr (.inl rfl)⟩

/-- Behind the unclosed link, the paragraph is `<P><A href="y*^i1=1^">&#164;</A>`: it has the link
of an image of another page. -/
theorem unclosed_link_leaks :
    ∃ s s', after sampleEnv sampleLex [(sampleMemory, unclosedLink)] = some s ∧
      after sampleEnv sampleLex [] = some s' ∧
      (distillerMain sampleEnv sampleLex sampleMemory s paragraph).map Prod.fst =
        some ([60, 80, 62] ++ links [[121, 42, 94, 105, 49, 61, 49, 94]]) ∧
      (distillerMain sampleEnv sampleLex sampleMemory s' paragraph).map Prod.fst =
        some [60, 80, 62] :=
  ⟨unclosedStatics, _, by decide +kernel, rfl, by decide +kernel, by decide +kernel⟩

end Glomop.HtmlMunger
