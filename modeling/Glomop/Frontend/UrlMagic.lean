import Glomop.Frontend.Arguments

/-!
# Magic URLs

A magic URL has arguments between its path and its form part:

    http://machine/rest*^i3=17^s12=text^?form

`toMagic` writes them, `isMagic` recognises them, and `fromMagic` enters them in an argument list.
`toMagic` and `isMagic` stay in front of the first `?`; `fromMagic` takes the last `*` of the whole
URL, and a form may contain one.  Source: `url_magic.h`, `url_magic.c`.
-/

namespace Glomop.UrlMagic

open Lib Rpc Frontend Function Option
open List hiding set

/-- `MAGIC_DELIM`, the character `^`. -/
def MAGIC_DELIM : UInt8 := 94

/-- `MAGIC_START`, the character `*`. -/
def MAGIC_START : UInt8 := 42

/-- The character `?`, which begins the form part of a URL. -/
def FORM_START : UInt8 := 63

variable {D : Type}

/-- The place of the first `?`, or the end of the URL. -/
def formStart (url : Bytes) : ℕ := url.idxOf FORM_START

def strrchr (cs : Bytes) (c : UInt8) : Option ℕ := lastIndex c cs 0 none

def isMagic (url : Bytes) : Bool :=
  let form := formStart url
  match lastIndex MAGIC_START (url.take form) 0 none with
  | none => false
  | some start =>
    url.getD (start + 1) 0 == MAGIC_DELIM && url.getD (form - 1) 0 == MAGIC_DELIM &&
      start + 1 != form - 1

/-- What `sprintf` writes for one argument.  An `int` goes through `%lu`. -/
def printArgument (printDouble : D → Bytes) (a : Argument D) : Bytes :=
  match a.value with
  | .typeString s => 115 :: printUInt32 a.id ++ 61 :: s.chars ++ [MAGIC_DELIM]
  | .typeInt v => 105 :: printUInt32 a.id ++ 61 :: printUInt32 v.toUInt32 ++ [MAGIC_DELIM]
  | .typeDouble d => 102 :: printUInt32 a.id ++ 61 :: printDouble d ++ [MAGIC_DELIM]

/-- The contents of `murl`, and the value returned. -/
def toMagic (printDouble : D → Bytes) (url : Bytes) (args : List (Argument D)) : Bytes × Bool :=
  if args = [] then (url, false)
  else
    let form := formStart url
    let murl := url.take form
    let murl := if isMagic url then murl else murl ++ [MAGIC_START, MAGIC_DELIM]
    (murl ++ args.flatMap (printArgument printDouble) ++ url.drop form, true)

/-- The variables that `from_magic` scans into. -/
structure Locals (D : Type) where
  id : UInt32
  intval : UInt32
  dblval : D
  strval : Bytes

def argumentType (c : UInt8) : Option ArgumentType :=
  if c = 115 then some .typeString
  else if c = 105 then some .typeInt
  else if c = 102 then some .typeDouble
  else none

/-- The part `%lu=` of the formats: the id, and the text behind the `=` if it was reached. -/
def scanID (text : Bytes) (v : Locals D) : Locals D × Option Bytes :=
  match scanUInt32 text with
  | none => (v, none)
  | some id =>
    ({ v with id := id },
      match numberRest text with
      | [] => none
      | c :: rest => if c = 61 then some rest else none)

/-- The calls of `sscanf`; a string that does not fit `strval` is written behind it.  `from_magic`,
the first `switch`. -/
def scanArgument (scanDouble : Bytes → Option D) (type : ArgumentType) (text : Bytes)
    (v : Locals D) : Option (Locals D) :=
  match scanID text v with
  | (v, none) => some v
  | (v, some rest) =>
    match type with
    | .typeString =>
      let s := rest.takeWhile (· ≠ MAGIC_DELIM)
      if s = [] then some v
      else if s.length < MAX_ARG_STRING then
        some { v with strval := s ++ 0 :: v.strval.drop (s.length + 1) }
      else none
    | .typeInt => some { v with intval := (scanUInt32 rest).getD v.intval }
    | .typeDouble => some { v with dblval := (scanDouble rest).getD v.dblval }

/-- `from_magic`, the second `switch`. -/
def Locals.assign (v : Locals D) (type : ArgumentType) (slot : Slot D) : Slot D :=
  match type with
  | .typeString => (slot.setString v.strval).setID v.id
  | .typeInt => (slot.setInt v.intval.toInt32).setID v.id
  | .typeDouble => (slot.setDouble v.dblval).setID v.id

structure Scanner (D : Type) where
  al : ArgumentList D
  locals : Locals D
  error : Bool

def Scanner.store (st : Scanner D) (type : ArgumentType) (v : Locals D) : Scanner D :=
  if h : st.al.index v.id ≠ MAX_ARGS then
    { st with al := st.al.enter v.id (v.assign type) h, locals := v }
  else { st with locals := v, error := true }

/-- The body of the loop; `pos` is the text at `murl_pos`. -/
def Scanner.round (scanDouble : Bytes → Option D) (pos : Bytes) (st : Scanner D) :
    Option (Scanner D) :=
  match argumentType (pos.headD 0) with
  | none => some { st with error := true }
  | some type => (scanArgument scanDouble type (pos.drop 1) st.locals).map (st.store type)

/-- The texts behind the delimiters, which `strchr(murl_pos, MAGIC_DELIM) + 1` runs through. -/
def delimited : Bytes → List Bytes
  | [] => []
  | c :: cs => if c = MAGIC_DELIM then cs :: delimited cs else delimited cs

def fromMagicLoop (scanDouble : Bytes → Option D) (formLength : ℕ) :
    Bytes → List Bytes → Scanner D → Option (Bytes × Scanner D)
  | _, [], _ => none
  | pos, next :: nexts, st =>
    (st.round scanDouble pos).bind fun st =>
      if formLength < next.length then fromMagicLoop scanDouble formLength next nexts st
      else some (next, st)

/-- The contents of `url`, the argument list, and the value returned; `none` where the function
reads or writes outside its objects. -/
def fromMagic (scanDouble : Bytes → Option D) (locals : Locals D) (al : ArgumentList D)
    (murl : Bytes) : Option (Bytes × ArgumentList D × Bool) :=
  if isMagic murl then
    match strrchr murl MAGIC_START with
    | none => none
    | some start =>
      if start + 2 ≤ murl.length then
        let pos := murl.drop (start + 2)
        (fromMagicLoop scanDouble (murl.length - formStart murl) pos (delimited pos)
          ⟨al, locals, false⟩).map fun (rest, st) => (murl.take start ++ rest, st.al, !st.error)
      else none
  else some (murl, al, false)

/-! ## What was not set

The URL that `from_magic` gives, and whether it reads or writes outside its objects, do not depend
on the argument list or on what the variables hold before they are set. -/

lemma scanID_rest (text : Bytes) (v w : Locals D) : (scanID text v).2 = (scanID text w).2 := by
  unfold scanID
  cases scanUInt32 text <;> rfl

section

variable (scanDouble : Bytes → Option D)

include scanDouble

lemma scanArgument_isSome (type : ArgumentType) (text : Bytes) (v w : Locals D) :
    (scanArgument scanDouble type text v).isSome =
      (scanArgument scanDouble type text w).isSome := by
  have hr := scanID_rest text v w
  unfold scanArgument
  generalize scanID text v = a at *
  generalize scanID text w = b at *
  obtain ⟨v', rest⟩ := a
  obtain ⟨w', _⟩ := b
  obtain rfl : rest = _ := hr
  cases rest with
  | none => rfl
  | some rest =>
    cases type with
    | typeInt => rfl
    | typeDouble => rfl
    | typeString =>
      simp only
      split_ifs <;> rfl

lemma Scanner.round_isSome (pos : Bytes) (st st' : Scanner D) :
    (st.round scanDouble pos).isSome = (st'.round scanDouble pos).isSome := by
  unfold Scanner.round
  cases argumentType (pos.headD 0) with
  | none => rfl
  | some type =>
    simp only [isSome_map]
    exact scanArgument_isSome scanDouble type _ _ _

lemma fromMagicLoop_rest (formLength : ℕ) (pos : Bytes) (nexts : List Bytes) (st st' : Scanner D) :
    (fromMagicLoop scanDouble formLength pos nexts st).map (·.1) =
      (fromMagicLoop scanDouble formLength pos nexts st').map (·.1) := by
  induction nexts generalizing pos st st' with
  | nil => rfl
  | cons next nexts ih =>
    have hs := Scanner.round_isSome scanDouble pos st st'
    unfold fromMagicLoop
    cases hst : st.round scanDouble pos with
    | none =>
      rw [hst] at hs
      have hs' : st'.round scanDouble pos = none := by simpa using hs.symm
      rw [hs']
    | some st1 =>
      rw [hst] at hs
      obtain ⟨st2, hs'⟩ := isSome_iff_exists.mp hs.symm
      rw [hs', bind_some, bind_some]
      split_ifs
      · exact ih next st1 st2
      · rfl

lemma fromMagic_url (locals locals' : Locals D) (al al' : ArgumentList D) (murl : Bytes) :
    (fromMagic scanDouble locals al murl).map (·.1) =
      (fromMagic scanDouble locals' al' murl).map (·.1) := by
  unfold fromMagic
  split_ifs
  · cases strrchr murl MAGIC_START with
    | none => rfl
    | some start =>
      dsimp only
      split_ifs
      · have hr := fromMagicLoop_rest scanDouble (murl.length - formStart murl)
          (murl.drop (start + 2)) (delimited (murl.drop (start + 2))) ⟨al, locals, false⟩
          ⟨al', locals', false⟩
        have hm := congrArg (Option.map (murl.take start ++ ·)) hr
        simpa [comp_def] using hm
      · rfl
  · rfl

end

/-! ## What the functions look for -/

/-- The form part of a URL is empty or begins with its `?`. -/
def IsForm (form : Bytes) : Prop := form = [] ∨ ∃ rest, form = FORM_START :: rest

lemma isForm_drop (url : Bytes) : IsForm (url.drop (formStart url)) := by
  by_cases h : FORM_START ∈ url
  · have hlt : formStart url < url.length := idxOf_lt_length_of_mem h
    refine .inr ⟨url.drop (formStart url + 1), ?_⟩
    rw [drop_eq_getElem_cons hlt]
    congr 1
    exact getElem_idxOf hlt
  · left
    rw [drop_eq_nil_iff, formStart, idxOf_eq_length h]

lemma not_mem_take_formStart (url : Bytes) : FORM_START ∉ url.take (formStart url) := by
  intro h
  obtain ⟨i, hi, heq⟩ := mem_take_iff_getElem.mp h
  have hlt : i < url.idxOf FORM_START := lt_of_lt_of_le hi (min_le_left _ _)
  have hne := not_of_lt_findIdx hlt
  simp [heq] at hne

variable {a : Argument D} {c : UInt8} {form path text : Bytes}

lemma formStart_append (hp : FORM_START ∉ path) (hf : IsForm form) :
    formStart (path ++ form) = path.length := by
  rw [formStart, idxOf_append_of_notMem hp]
  rcases hf with rfl | ⟨rest, rfl⟩
  · simp
  · simp

/-! ## One argument -/

/-- An argument that a magic URL can carry: an `int`, or a string that is not empty and contains
none of the characters the URL is taken apart at. -/
def Writable (a : Argument D) : Prop :=
  match a.value with
  | .typeInt _ => True
  | .typeString s =>
    s.chars ≠ [] ∧ MAGIC_DELIM ∉ s.chars ∧ MAGIC_START ∉ s.chars ∧ FORM_START ∉ s.chars
  | .typeDouble _ => False

def reserved : List UInt8 := [MAGIC_DELIM, MAGIC_START, FORM_START]

lemma not_mem_printUInt32_of_mem_reserved (hc : c ∈ reserved) (v : UInt32) : c ∉ printUInt32 v := by
  intro h
  have hd := mem_printUInt32 h
  fin_cases hc <;> exact absurd hd (by decide)

lemma not_mem_of_mem_reserved {s : CString MAX_ARG_STRING} (ha : Writable a)
    (hs : a.value = .typeString s) (hc : c ∈ reserved) : c ∉ s.chars := by
  simp only [Writable, hs] at ha
  obtain ⟨-, hd, hst, hf⟩ := ha
  fin_cases hc
  · exact hd
  · exact hst
  · exact hf

lemma exists_printArgument (printDouble : D → Bytes) (ha : Writable a) :
    ∃ text, printArgument printDouble a = text ++ [MAGIC_DELIM] ∧ ∀ c ∈ reserved, c ∉ text := by
  have hl : ∀ x ∈ [(115 : UInt8), 105, 61], x ∉ reserved := by
    simp [reserved, MAGIC_DELIM, MAGIC_START, FORM_START]
  have hne {c x : UInt8} (hc : c ∈ reserved) (hx : x ∈ [(115 : UInt8), 105, 61]) : c ≠ x :=
    fun h => hl x hx (h ▸ hc)
  rcases hv : a.value with v | s | d
  · refine ⟨105 :: printUInt32 a.id ++ 61 :: printUInt32 v.toUInt32, ?_, fun c hc => ?_⟩
    · simp [printArgument, hv]
    · simp [hne hc, not_mem_printUInt32_of_mem_reserved hc]
  · refine ⟨115 :: printUInt32 a.id ++ 61 :: s.chars, ?_, fun c hc => ?_⟩
    · simp [printArgument, hv]
    · simp [hne hc, not_mem_printUInt32_of_mem_reserved hc, not_mem_of_mem_reserved ha hv hc]
  · simp [Writable, hv] at ha

lemma endsNumber_equals (rest : Bytes) : EndsNumber (61 :: rest) := by
  intro c hc
  obtain rfl : (61 : UInt8) = c := by simpa using hc
  decide

lemma scanID_print (id : UInt32) (rest : Bytes) (v : Locals D) :
    scanID (printUInt32 id ++ 61 :: rest) v = ({ v with id := id }, some rest) := by
  obtain ⟨hs, hr⟩ := scanUInt32_printUInt32_append id (endsNumber_equals rest)
  simp [scanID, hs, hr]

/-- **Scanning one argument.** The round that meets a written argument enters it. -/
theorem exists_round (printDouble : D → Bytes) (scanDouble : Bytes → Option D) (ha : Writable a)
    (rest : Bytes) (st : Scanner D) :
    ∃ type v, v.id = a.id ∧ v.assign type = Slot.write a ∧
      st.round scanDouble (printArgument printDouble a ++ rest) = some (st.store type v) := by
  rcases hv : a.value with n | s | d
  · have hsc : scanUInt32 (printUInt32 n.toUInt32 ++ MAGIC_DELIM :: rest) = some n.toUInt32 := by
      refine (scanUInt32_printUInt32_append _ fun c hc => ?_).1
      obtain rfl : MAGIC_DELIM = c := by simpa using hc
      decide
    refine ⟨.typeInt, { st.locals with id := a.id, intval := n.toUInt32 }, rfl, ?_, ?_⟩
    · funext slot
      simp [Locals.assign, Slot.write, hv]
    · simp [Scanner.round, printArgument, hv, argumentType, scanArgument, scanID_print, hsc]
  · have hs : MAGIC_DELIM ∉ s.chars := not_mem_of_mem_reserved ha hv (by simp [reserved])
    have hne : s.chars ≠ [] := by
      simp only [Writable, hv] at ha
      exact ha.1
    refine ⟨.typeString,
      { st.locals with
        id := a.id
        strval := s.chars ++ 0 :: st.locals.strval.drop (s.chars.length + 1) }, rfl, ?_, ?_⟩
    · have hcs : cString (s.chars ++ 0 :: st.locals.strval.drop (s.chars.length + 1)) =
          cString s.chars := by
        rw [cString_append_nul s.noNul, cString_eq_self s.noNul]
      funext slot
      simp only [Locals.assign, Slot.write, hv, Slot.setString, strncpy, hcs]
    · have ht := takeWhile_ne_append hs rest
      simp only [Scanner.round, printArgument, hv, cons_append, append_assoc,
        nil_append, headD_cons, drop_succ_cons, drop_zero, argumentType,
        if_true, scanArgument, scanID_print, ht, if_neg hne, if_pos s.fits, map_some]
  · simp [Writable, hv] at ha

/-! ## All the arguments -/

lemma exists_round_eq (printDouble : D → Bytes) (scanDouble : Bytes → Option D) (ha : Writable a)
    (rest : Bytes) (st : Scanner D) :
    ∃ st', st.round scanDouble (printArgument printDouble a ++ rest) = some st' ∧
      (st'.al, st'.error) = enterOne (st.al, st.error) a := by
  obtain ⟨type, v, hid, hass, hr⟩ := exists_round printDouble scanDouble ha rest st
  refine ⟨_, hr, ?_⟩
  simp only [Scanner.store, enterOne, hid, hass]
  split_ifs <;> rfl

lemma delimited_append (h : MAGIC_DELIM ∉ text) (rest : Bytes) :
    delimited (text ++ MAGIC_DELIM :: rest) = rest :: delimited rest := by
  induction text with
  | nil => simp [delimited]
  | cons c text ih =>
    rw [mem_cons, not_or] at h
    rw [cons_append, delimited, if_neg (Ne.symm h.1), ih h.2]

lemma flatMap_printArgument_ne_nil (printDouble : D → Bytes) {args : List (Argument D)}
    (ha : ∀ a ∈ args, Writable a) (hne : args ≠ []) :
    args.flatMap (printArgument printDouble) ≠ [] := by
  obtain ⟨a, args, rfl⟩ := exists_cons_of_ne_nil hne
  obtain ⟨text, ht, -⟩ := exists_printArgument printDouble (ha a (.head _))
  simp [ht]

/-- **Scanning all the arguments.** The loop enters them in order and stops at the form. -/
theorem exists_loop (printDouble : D → Bytes) (scanDouble : Bytes → Option D) (form : Bytes)
    {args : List (Argument D)} (har : ∀ a ∈ args, Writable a) (hne : args ≠ []) (st : Scanner D) :
    ∃ st', fromMagicLoop scanDouble form.length (args.flatMap (printArgument printDouble) ++ form)
        (delimited (args.flatMap (printArgument printDouble) ++ form)) st = some (form, st') ∧
      (st'.al, st'.error) = args.foldl enterOne (st.al, st.error) := by
  induction args generalizing st with
  | nil => exact absurd rfl hne
  | cons a args ih =>
    obtain ⟨text, hte, hre⟩ := exists_printArgument printDouble (har a (.head _))
    obtain ⟨st1, hr, hs⟩ :=
      exists_round_eq printDouble scanDouble (har a (.head _))
      (args.flatMap (printArgument printDouble) ++ form) st
    have hd := delimited_append (hre MAGIC_DELIM (by simp [reserved]))
      (args.flatMap (printArgument printDouble) ++ form)
    have ht : ∀ b ∈ args, Writable b := fun b hb => har b (.tail a hb)
    rw [flatMap_cons, append_assoc, foldl_cons, ← hs]
    rw [hte, append_assoc, singleton_append] at hr ⊢
    rw [hd, fromMagicLoop, hr, bind_some]
    by_cases ha : args = []
    · subst ha
      exact ⟨st1, by simp, rfl⟩
    · have hlt : form.length < (args.flatMap (printArgument printDouble) ++ form).length := by
        have hpos := length_pos_of_ne_nil (flatMap_printArgument_ne_nil printDouble ht ha)
        rw [length_append]
        omega
      rw [if_pos hlt]
      exact ih ht ha st1

/-! ## The whole URL -/

section Whole

variable {printDouble : D → Bytes} {url : Bytes} {args : List (Argument D)}

lemma toMagic_eq (hu : isMagic url = false) (hne : args ≠ []) :
    toMagic printDouble url args =
      (url.take (formStart url) ++ MAGIC_START ::
        (MAGIC_DELIM :: args.flatMap (printArgument printDouble) ++ url.drop (formStart url)),
        true) := by
  simp [toMagic, hu, hne]

lemma not_mem_flatMap_printArgument (har : ∀ a ∈ args, Writable a)
    (hc : c ∈ [MAGIC_START, FORM_START]) : c ∉ args.flatMap (printArgument printDouble) := by
  intro h
  obtain ⟨a, ha, hmem⟩ := mem_flatMap.mp h
  obtain ⟨text, ht, hr⟩ := exists_printArgument printDouble (har a ha)
  rw [ht, mem_append, mem_singleton] at hmem
  rcases hmem with hmem | rfl
  · exact hr c (.tail _ hc) hmem
  · simp [MAGIC_DELIM, MAGIC_START, FORM_START] at hc

lemma exists_flatMap_printArgument (printDouble : D → Bytes) (ha : ∀ a ∈ args, Writable a)
    (hne : args ≠ []) :
    ∃ text, args.flatMap (printArgument printDouble) = text ++ [MAGIC_DELIM] ∧
      MAGIC_START ∉ text ∧ FORM_START ∉ text := by
  have hs : MAGIC_START ∉ args.flatMap (printArgument printDouble) :=
    not_mem_flatMap_printArgument ha (by simp)
  have hf : FORM_START ∉ args.flatMap (printArgument printDouble) :=
    not_mem_flatMap_printArgument ha (by simp)
  obtain ⟨text, ht, -⟩ := exists_printArgument printDouble (ha _ (getLast_mem hne))
  have hal : args.flatMap (printArgument printDouble) =
      args.dropLast.flatMap (printArgument printDouble) ++ text ++ [MAGIC_DELIM] := by
    conv_lhs => rw [← dropLast_append_getLast hne]
    rw [flatMap_append, flatMap_singleton, ht, append_assoc]
  rw [hal] at hs hf ⊢
  exact ⟨_, rfl, fun h => hs (mem_append_left _ h), fun h => hf (mem_append_left _ h)⟩

end Whole

lemma start_ne_form : MAGIC_START ≠ FORM_START := by decide

lemma delim_ne_form : MAGIC_DELIM ≠ FORM_START := by decide

lemma delim_ne_start : MAGIC_DELIM ≠ MAGIC_START := by decide

lemma formStart_magic (hp : FORM_START ∉ path) (ht : FORM_START ∉ text) (hfo : IsForm form) :
    formStart (path ++ MAGIC_START :: MAGIC_DELIM :: (text ++ MAGIC_DELIM :: form)) =
      path.length + text.length + 3 := by
  have hf : FORM_START ∉ path ++ MAGIC_START :: MAGIC_DELIM :: (text ++ [MAGIC_DELIM]) := by
    simp [hp, ht, start_ne_form.symm, delim_ne_form.symm]
  have hs := formStart_append hf hfo
  simp only [append_assoc, cons_append, nil_append, length_append, length_cons, length_nil] at hs
  rw [hs]
  omega

lemma isMagic_magic (hpa : FORM_START ∉ path) (hsr : MAGIC_START ∉ text)
    (ht : FORM_START ∉ text) (hfo : IsForm form) :
    isMagic (path ++ MAGIC_START :: MAGIC_DELIM :: (text ++ MAGIC_DELIM :: form)) = true := by
  set murl := path ++ MAGIC_START :: MAGIC_DELIM :: (text ++ MAGIC_DELIM :: form) with hm
  have hst : formStart murl = path.length + text.length + 3 := formStart_magic hpa ht hfo
  have hta : murl.take (path.length + text.length + 3) =
      path ++ MAGIC_START :: (MAGIC_DELIM :: (text ++ [MAGIC_DELIM])) := by
    rw [hm, show path.length + text.length + 3 =
        (path ++ MAGIC_START :: (MAGIC_DELIM :: (text ++ [MAGIC_DELIM]))).length by simp; omega]
    rw [show path ++ MAGIC_START :: MAGIC_DELIM :: (text ++ MAGIC_DELIM :: form) =
        (path ++ MAGIC_START :: (MAGIC_DELIM :: (text ++ [MAGIC_DELIM]))) ++ form by simp]
    exact take_left
  have hl : lastIndex MAGIC_START
      (path ++ MAGIC_START :: (MAGIC_DELIM :: (text ++ [MAGIC_DELIM]))) 0 none = some path.length :=
    lastIndex_eq path (by simp [hsr, delim_ne_start.symm])
  have hs : murl.getD (path.length + 1) 0 = MAGIC_DELIM := by
    simp [hm, getD_eq_getElem?_getD]
  have hf : murl.getD (path.length + text.length + 2) 0 = MAGIC_DELIM := by
    rw [hm, show path ++ MAGIC_START :: MAGIC_DELIM :: (text ++ MAGIC_DELIM :: form) =
        (path ++ MAGIC_START :: MAGIC_DELIM :: text) ++ MAGIC_DELIM :: form by simp,
      show path.length + text.length + 2 =
        (path ++ MAGIC_START :: MAGIC_DELIM :: text).length by simp; omega,
      getD_eq_getElem?_getD]
    simp
  have hn : path.length + 1 ≠ path.length + text.length + 2 := by omega
  have hp : path.length + text.length + 3 - 1 = path.length + text.length + 2 := rfl
  simp only [isMagic, hst, hta, hl, hs, hp, hf]
  simpa using hn

section Inverse

variable {printDouble : D → Bytes} {scanDouble : Bytes → Option D} {url : Bytes}
  {args : List (Argument D)} {locals : Locals D} {al : ArgumentList D}

lemma append_formStart (url : Bytes) :
    url.take (formStart url) ++ url.drop (formStart url) = url := take_append_drop _ _

lemma fromMagic_toMagic (hur : isMagic url = false) (hne : args ≠ [])
    (ha : ∀ a ∈ args, Writable a) (hsr : MAGIC_START ∉ url.drop (formStart url)) :
    fromMagic scanDouble locals al (toMagic printDouble url args).1 =
      some (url, (args.foldl enterOne (al, false)).1, !(args.foldl enterOne (al, false)).2) := by
  have hp := not_mem_take_formStart url
  have hf := isForm_drop url
  obtain ⟨text, ht, hs, hq⟩ := exists_flatMap_printArgument printDouble ha hne
  obtain ⟨st, hl, hst⟩ := exists_loop printDouble scanDouble
    (url.drop (formStart url)) ha hne ⟨al, locals, false⟩
  have hu := append_formStart url
  rw [toMagic_eq hur hne]
  set path := url.take (formStart url)
  set form := url.drop (formStart url)
  rw [ht] at hl ⊢
  simp only [cons_append, append_assoc, nil_append] at hl ⊢
  set murl := path ++ MAGIC_START :: MAGIC_DELIM :: (text ++ MAGIC_DELIM :: form) with hm
  have hma : isMagic murl = true := isMagic_magic hp hs hq hf
  have hr : strrchr murl MAGIC_START = some path.length :=
    lastIndex_eq path (by simp [hs, hsr, delim_ne_start.symm])
  have hle : murl.length - formStart murl = form.length := by
    rw [formStart_magic hp hq hf, hm]
    simp
    omega
  have hd : murl.drop (path.length + 2) = text ++ MAGIC_DELIM :: form := by
    rw [hm, drop_append]
    simp
  have hta : murl.take path.length = path := by rw [hm, take_left]
  have hfi : path.length + 2 ≤ murl.length := by
    rw [hm]
    simp
  rw [← hst]
  simp [fromMagic, hma, hr, if_pos hfi, hd, hle, hl, hta, hu]

lemma url_ne_of_mem (hur : isMagic url = false) (hne : args ≠ []) (ha : ∀ a ∈ args, Writable a)
    (hs : MAGIC_START ∈ url.drop (formStart url)) {url' : Bytes} {al' : ArgumentList D} {b : Bool}
    (h : fromMagic scanDouble locals al (toMagic printDouble url args).1 = some (url', al', b)) :
    url' ≠ url := by
  have hp := not_mem_take_formStart url
  have hf := isForm_drop url
  obtain ⟨text, hte, hst, hq⟩ := exists_flatMap_printArgument printDouble ha hne
  have hu := append_formStart url
  rw [toMagic_eq hur hne] at h
  set path := url.take (formStart url)
  set form := url.drop (formStart url)
  obtain ⟨a, c, hsp, hc⟩ := exists_last hs
  rw [hte] at h
  simp only [cons_append, append_assoc, nil_append] at h
  set murl := path ++ MAGIC_START :: MAGIC_DELIM :: (text ++ MAGIC_DELIM :: form) with hmu
  have hm : isMagic murl = true := isMagic_magic hp hst hq hf
  have hm' : murl =
      (path ++ MAGIC_START :: MAGIC_DELIM :: (text ++ MAGIC_DELIM :: a)) ++ MAGIC_START :: c := by
    simp [hmu, hsp]
  have hr : strrchr murl MAGIC_START =
      some (path ++ MAGIC_START :: MAGIC_DELIM :: (text ++ MAGIC_DELIM :: a)).length := by
    rw [hm']
    exact lastIndex_eq _ hc
  simp only [fromMagic, hm, if_true, hr] at h
  split_ifs at h
  obtain ⟨⟨rest, st⟩, -, heq⟩ := map_eq_some_iff.mp h
  cases heq
  rw [hm', take_left]
  -- behind the path there is a star in the one and a question mark in the other
  intro hco
  rw [← hu, append_assoc, append_cancel_left_eq] at hco
  rcases hf with hn | ⟨tail, ht⟩
  · rw [hn] at hs
    cases hs
  · rw [ht, cons_append] at hco
    exact start_ne_form (List.cons.inj hco).1

end Inverse

/-! ## When the arguments come back -/

section RoundTrip

variable {printDouble : D → Bytes} {scanDouble : Bytes → Option D} {url : Bytes}
  {args : List (Argument D)} {locals : Locals D} {al al' : ArgumentList D}

/-- The magic URL of `url` and `args` is taken apart into them: the call returns `gm_True`, leaves
the URL in its buffer, and merges the arguments into the list. -/
def RoundTrips (printDouble : D → Bytes) (scanDouble : Bytes → Option D) (locals : Locals D)
    (al : ArgumentList D) (url : Bytes) (args : List (Argument D)) : Prop :=
  ∃ al', fromMagic scanDouble locals al (toMagic printDouble url args).1 = some (url, al', true) ∧
    Merged al args al' ∧ (al.nargs = 0 → al'.used.map Slot.view = args.map some)

/-- **Magic URLs.** For a URL that is not magic and arguments with distinct ids that a magic URL can
carry, what `toMagic` wrote is taken apart into the same URL and the same arguments exactly if there
is no star in the form, the list has room for the arguments, and a string of 79 characters goes to a
place whose last byte is NUL. -/
theorem fromMagic_toMagic_iff (hurl : isMagic url = false) (hne : args ≠ [])
    (hargs : ∀ a ∈ args, Writable a) (hids : (args.map (·.id)).Nodup) :
    RoundTrips printDouble scanDouble locals al url args ↔
      MAGIC_START ∉ url.drop (formStart url) ∧ Room al args ∧ Terminated al args := by
  by_cases hs : MAGIC_START ∈ url.drop (formStart url)
  · refine ⟨fun ⟨al', hf, _⟩ => ?_, fun h => absurd hs h.1⟩
    exact absurd rfl (url_ne_of_mem hurl hne hargs hs hf)
  · have hf : fromMagic scanDouble locals al (toMagic printDouble url args).1 = _ :=
      fromMagic_toMagic hurl hne hargs hs
    constructor
    · rintro ⟨al', heq, hm, -⟩
      have hr := hm.room
      obtain ⟨al₁, hfo, he⟩ := entered_foldl hids hr
      rw [hf, hfo] at heq
      obtain rfl : al₁ = al' := by simpa using heq
      exact ⟨hs, hr, (he.merged_iff hr).mp hm⟩
    · rintro ⟨-, hr, ht⟩
      obtain ⟨al', hfo, he⟩ := entered_foldl hids hr
      have hm := (he.merged_iff hr).mpr ht
      refine ⟨al', ?_, hm, hm.map_view hids⟩
      rw [hf, hfo]
      rfl

end RoundTrip

def emptyList : ArgumentList Unit where
  nargs := 0
  arg := List.replicate MAX_ARGS
    ⟨.typeInt, 0, 0, List.replicate MAX_ARG_STRING 0, (), length_zeros⟩
  arg_length := length_replicate
  nargs_le := Nat.zero_le _

/-- The variables of `from_magic` before anything has been scanned. -/
def sampleLocals : Locals Unit := ⟨0, 0, (), []⟩

def sampleArgument : Argument Unit := ⟨1, .typeInt 100⟩

/-- `u?q`, and the argument `i1=100`. -/
theorem fromMagic_toMagic_iff_sample :
    isMagic [117, 63, 113] = false ∧
      RoundTrips (fun _ => []) (fun _ => none) sampleLocals emptyList [117, 63, 113]
        [sampleArgument] := by
  have hu : isMagic [117, 63, 113] = false := by decide
  refine ⟨hu, (fromMagic_toMagic_iff hu (by simp) ?_ (by simp)).mpr ⟨by decide, ?_, ?_⟩⟩
  · simp [Writable, sampleArgument]
  · show 0 + (List.filter _ [sampleArgument]).length ≤ MAX_ARGS
    refine (Nat.zero_add _).trans_le ((length_filter_le _ _).trans ?_)
    decide
  · simp [Terminated, Long, sampleArgument]

/-- `u?a*b`: the star that `from_magic` finds is the one in the form.  It steps over the two
characters behind it, finds no delimiter in what is left, and reads through `NULL + 1`. -/
theorem starInForm_faults :
    isMagic [117, 63, 97, 42, 98] = false ∧ Writable sampleArgument ∧
      fromMagic (fun _ => none) sampleLocals emptyList
        (toMagic (fun _ : Unit => []) [117, 63, 97, 42, 98] [sampleArgument]).1 = none ∧
      ¬ RoundTrips (fun _ => []) (fun _ => none) sampleLocals emptyList [117, 63, 97, 42, 98]
        [sampleArgument] := by
  have hn : fromMagic (fun _ => none) sampleLocals emptyList
      (toMagic (fun _ : Unit => []) [117, 63, 97, 42, 98] [sampleArgument]).1 = none :=
    isNone_iff_eq_none.mp (by decide +kernel)
  refine ⟨by decide, trivial, hn, ?_⟩
  rintro ⟨al', hf, -⟩
  rw [hn] at hf
  cases hf

end Glomop.UrlMagic
