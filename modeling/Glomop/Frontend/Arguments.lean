import Glomop.Dist.Rpc

/-!
# Argument lists

An `ArgumentList` is an array of `MAX_ARGS` places, of which the first `nargs` are in use.  Code
that adds an argument overwrites the place with its id, or takes the next one.  `SET_ARG_STRING`
never writes the last byte of a place (`Slot.view_write_iff`).  `Entered.merged_iff` says what a
list holds after arguments with distinct ids have been entered.  Source: `distinterface.h`.
-/

namespace Glomop.Frontend

open Lib Rpc Option
open List hiding set

abbrev MAX_ARGS : ℕ := 50

/-! ## Argument lists in memory -/

inductive ArgumentType
  | typeInt
  | typeString
  | typeDouble
deriving DecidableEq

/-- One element of the array of an argument list.  The members of the union are kept apart: only the
one written last is read, but for the last byte of `arg_string`, which lies behind the others.
`struct Argument`. -/
structure Slot (D : Type) where
  type : ArgumentType
  id : UInt32
  arg_int : Int32
  arg_string : Bytes
  arg_double : D
  arg_string_length : arg_string.length = MAX_ARG_STRING

open Slot

structure ArgumentList (D : Type) where
  nargs : ℕ
  arg : List (Slot D)
  arg_length : arg.length = MAX_ARGS
  nargs_le : nargs ≤ MAX_ARGS

open ArgumentList

lemma length_zeros : (replicate MAX_ARG_STRING (0 : UInt8)).length = MAX_ARG_STRING :=
  length_replicate

lemma one_le_maxArgs : 1 ≤ MAX_ARGS := by decide

variable {D : Type}

def ArgumentList.used (al : ArgumentList D) : List (Slot D) := al.arg.take al.nargs

def ArgumentList.lookup (al : ArgumentList D) (id : UInt32) : Option (Slot D) :=
  al.used.find? (·.id = id)

def Slot.view (slot : Slot D) : Option (Argument D) :=
  match slot.type with
  | .typeInt => some ⟨slot.id, .typeInt slot.arg_int⟩
  | .typeDouble => some ⟨slot.id, .typeDouble slot.arg_double⟩
  | .typeString =>
    if h : (0 : UInt8) ∈ slot.arg_string then
      some ⟨slot.id, .typeString
        ⟨cString slot.arg_string, cString_noNul _, slot.arg_string_length ▸ cString_length_lt h⟩⟩
    else none

/-- `strncpy(dst, src, n)`: at most `n` characters of `src`, and NULs up to `n`. -/
def strncpy (dst src : Bytes) (n : ℕ) : Bytes :=
  let copied := (cString src).take n
  copied ++ List.replicate (n - copied.length) 0 ++ dst.drop n

lemma strncpy_length (dst src : Bytes) {n : ℕ} (h : n ≤ dst.length) :
    (strncpy dst src n).length = dst.length := by
  have ht : ((cString src).take n).length ≤ n := length_take_le _ _
  simp only [strncpy, length_append, length_replicate, length_drop]
  omega

/-- `SET_ARG_INT`. -/
def Slot.setInt (slot : Slot D) (i : Int32) : Slot D := { slot with type := .typeInt, arg_int := i }

/-- The last byte of the array is not written.  `SET_ARG_STRING`. -/
def Slot.setString (slot : Slot D) (s : Bytes) : Slot D :=
  { slot with
    type := .typeString
    arg_string := strncpy slot.arg_string s (MAX_ARG_STRING - 1)
    arg_string_length := by
      rw [strncpy_length _ _ (by rw [slot.arg_string_length]; omega), slot.arg_string_length] }

/-- `SET_ARG_DOUBLE`. -/
def Slot.setDouble (slot : Slot D) (d : D) : Slot D :=
  { slot with type := .typeDouble, arg_double := d }

/-- `SET_ARG_ID`. -/
def Slot.setID (slot : Slot D) (id : UInt32) : Slot D := { slot with id := id }

/-- The loop over the list: the place of the first argument with the id, or `nargs`. -/
def ArgumentList.index (al : ArgumentList D) (id : UInt32) : ℕ := (al.used.map Slot.id).idxOf id

lemma ArgumentList.used_length (al : ArgumentList D) : al.used.length = al.nargs := by
  rw [used, length_take, al.arg_length, min_eq_left al.nargs_le]

/-- Enter an argument at the place of its id, which may be the next free one. -/
def ArgumentList.enter (al : ArgumentList D) (id : UInt32) (write : Slot D → Slot D)
    (h : al.index id ≠ MAX_ARGS) : ArgumentList D where
  nargs := if al.index id = al.nargs then al.nargs + 1 else al.nargs
  arg := al.arg.modify (al.index id) write
  arg_length := by rw [length_modify, al.arg_length]
  nargs_le := by
    have hle := al.nargs_le
    split_ifs with heq
    · omega
    · exact hle

def Slot.write (a : Argument D) (slot : Slot D) : Slot D :=
  match a.value with
  | .typeInt v => (slot.setInt v).setID a.id
  | .typeString s => (slot.setString s.chars).setID a.id
  | .typeDouble d => (slot.setDouble d).setID a.id

@[simp] lemma Slot.write_id (a : Argument D) (slot : Slot D) : (slot.write a).id = a.id := by
  unfold write
  split <;> rfl

def enterOne (r : ArgumentList D × Bool) (a : Argument D) : ArgumentList D × Bool :=
  if h : r.1.index a.id ≠ MAX_ARGS then (r.1.enter a.id (Slot.write a) h, r.2) else (r.1, true)

/-! ## What entering does to the list -/

lemma modify_append_left {α : Type} {l m : List α} {i : ℕ} (h : i < l.length) (f : α → α) :
    (l ++ m).modify i f = l.modify i f ++ m := by
  induction l generalizing i with
  | nil => cases h
  | cons x l ih =>
    cases i with
    | zero => rfl
    | succ i =>
      rw [cons_append, modify_succ_cons, modify_succ_cons, cons_append, ih (by simpa using h)]

lemma modify_append_cons {α : Type} (l : List α) (x : α) (m : List α) (f : α → α) :
    (l ++ x :: m).modify l.length f = l ++ f x :: m := by
  induction l with
  | nil => rfl
  | cons y l ih =>
    rw [cons_append, length_cons, modify_succ_cons, ih, cons_append]

namespace ArgumentList

variable {al : ArgumentList D} {id : UInt32} (write : Slot D → Slot D)

def spare (al : ArgumentList D) : List (Slot D) := al.arg.drop al.nargs

def ids (al : ArgumentList D) : List UInt32 := al.used.map Slot.id

lemma nargs_add_spare (al : ArgumentList D) : al.nargs + al.spare.length = MAX_ARGS := by
  rw [spare, length_drop, al.arg_length]
  have := al.nargs_le
  omega

lemma arg_eq (al : ArgumentList D) : al.arg = al.used ++ al.spare := (take_append_drop _ _).symm

lemma index_lt (h : id ∈ al.ids) : al.index id < al.used.length := by
  have hlt := idxOf_lt_length_of_mem h
  rwa [ids, length_map] at hlt

lemma index_eq (h : id ∉ al.ids) : al.index id = al.nargs := by
  rw [index, ← ids, idxOf_eq_length h, ids, length_map, al.used_length]

lemma enter_of_mem (hid : id ∈ al.ids) (h : al.index id ≠ MAX_ARGS) :
    (al.enter id write h).used = al.used.modify (al.index id) write ∧
      (al.enter id write h).spare = al.spare := by
  have hlt := index_lt hid
  have hne : al.index id ≠ al.nargs := by
    rw [al.used_length] at hlt
    omega
  have ha : (al.enter id write h).arg = al.used.modify (al.index id) write ++ al.spare := by
    change al.arg.modify (al.index id) write = _
    conv_lhs => rw [al.arg_eq]
    exact modify_append_left hlt write
  have hn : (al.enter id write h).nargs = (al.used.modify (al.index id) write).length := by
    rw [length_modify, al.used_length]
    exact if_neg hne
  rw [used, spare, ha, hn]
  exact ⟨take_left, drop_left⟩

lemma enter_of_not_mem (hid : id ∉ al.ids) (h : al.index id ≠ MAX_ARGS) :
    ∃ slot, al.spare = slot :: (al.enter id write h).spare ∧
      (al.enter id write h).used = al.used ++ [write slot] := by
  have hi : al.index id = al.used.length := by rw [index_eq hid, al.used_length]
  have hs : al.spare ≠ [] := by
    intro hni
    have hl := al.nargs_add_spare
    rw [hni, length_nil] at hl
    rw [hi, al.used_length] at h
    omega
  obtain ⟨slot, rest, hc⟩ := exists_cons_of_ne_nil hs
  have ha : (al.enter id write h).arg = (al.used ++ [write slot]) ++ rest := by
    change al.arg.modify (al.index id) write = _
    rw [al.arg_eq, hc, hi, modify_append_cons, append_assoc, singleton_append]
  have hn : (al.enter id write h).nargs = (al.used ++ [write slot]).length := by
    rw [length_append, length_singleton, al.used_length]
    exact if_pos (index_eq hid)
  refine ⟨slot, ?_, ?_⟩
  · rw [hc, spare, ha, hn, drop_left]
  · rw [used, ha, hn, take_left]

end ArgumentList

section Modify

variable {id : UInt32} {write : Slot D → Slot D}
  (hwrite : ∀ slot, slot.id = id → (write slot).id = id)

include hwrite

lemma map_id_modify (l : List (Slot D)) :
    (l.modify ((l.map Slot.id).idxOf id) write).map Slot.id = l.map Slot.id := by
  induction l with
  | nil => rfl
  | cons slot l ih =>
    by_cases h : slot.id = id
    · simp [h, hwrite slot h]
    · rw [map_cons, idxOf_cons_ne _ h, modify_succ_cons, map_cons, ih]

lemma find_modify (l : List (Slot D)) (id' : UInt32) :
    (l.modify ((l.map Slot.id).idxOf id) write).find? (·.id = id') =
      if id' = id then (l.find? (·.id = id')).map write else l.find? (·.id = id') := by
  induction l with
  | nil => simp
  | cons slot l ih =>
    by_cases h : slot.id = id
    · rw [map_cons, h, idxOf_cons_self, modify_zero_cons]
      by_cases hid : id' = id
      · simp [hid, h, hwrite slot h]
      · simp [hid, h, hwrite slot h, Ne.symm hid]
    · rw [map_cons, idxOf_cons_ne _ h, modify_succ_cons, find?_cons, find?_cons, ih]
      by_cases hid : slot.id = id'
      · have hne : id' ≠ id := fun heq => h (hid.trans heq)
        simp [hid, hne]
      · simp [hid]

end Modify

namespace ArgumentList

variable {al : ArgumentList D} {id : UInt32} {write : Slot D → Slot D}

lemma lookup_isSome (h : id ∈ al.ids) : (al.lookup id).isSome := by
  obtain ⟨slot, hs, rfl⟩ := mem_map.mp h
  exact find?_isSome.mpr ⟨slot, hs, by simp⟩

lemma lookup_eq_none (h : id ∉ al.ids) : al.lookup id = none := by
  refine find?_eq_none.mpr fun slot hs => ?_
  have hne : slot.id ≠ id := fun heq => h (mem_map.mpr ⟨slot, hs, heq⟩)
  simpa using hne

lemma ids_length (al : ArgumentList D) : al.ids.length = al.nargs := by
  rw [ids, length_map, al.used_length]

section

variable (hwrite : ∀ slot, (write slot).id = id)

include hwrite

lemma ids_enter_of_mem (hid : id ∈ al.ids)
    (h : al.index id ≠ MAX_ARGS) : (al.enter id write h).ids = al.ids := by
  rw [ids, (enter_of_mem write hid h).1]
  exact map_id_modify (fun slot _ => hwrite slot) al.used

lemma ids_enter_of_not_mem (hid : id ∉ al.ids)
    (h : al.index id ≠ MAX_ARGS) : (al.enter id write h).ids = al.ids ++ [id] := by
  obtain ⟨slot, -, hu⟩ := enter_of_not_mem write hid h
  simp [ids, hu, hwrite]

lemma lookup_enter_of_mem (hid : id ∈ al.ids) (h : al.index id ≠ MAX_ARGS) (id' : UInt32) :
    (al.enter id write h).lookup id' =
      if id' = id then (al.lookup id').map write else al.lookup id' := by
  rw [lookup, (enter_of_mem write hid h).1]
  exact find_modify (fun slot _ => hwrite slot) al.used id'

end

lemma find_append_singleton {slot : Slot D} (hs : slot.id = id) (hid : id ∉ al.ids) (id' : UInt32) :
    (al.used ++ [slot]).find? (·.id = id') = if id' = id then some slot else al.lookup id' := by
  rw [List.find?_append]
  by_cases heq : id' = id
  · have hn : al.used.find? (·.id = id') = none := lookup_eq_none (heq ▸ hid)
    rw [if_pos heq, hn]
    simp [heq, hs]
  · rw [if_neg heq]
    simp [hs, Ne.symm heq, lookup]

end ArgumentList

def fresh (al : ArgumentList D) (args : List (Argument D)) : List (Argument D) :=
  args.filter (·.id ∉ al.ids)

def place (al : ArgumentList D) (args : List (Argument D)) (a : Argument D) : Option (Slot D) :=
  (al.lookup a.id).or al.spare[((fresh al args).map (·.id)).idxOf a.id]?

structure Entered (al : ArgumentList D) (args : List (Argument D)) (al' : ArgumentList D) :
    Prop where
  ids_eq : al'.ids = al.ids ++ (fresh al args).map (·.id)
  written : ∀ a ∈ args, al'.lookup a.id = (place al args a).map (Slot.write a)
  kept : ∀ id, (∀ a ∈ args, a.id ≠ id) → al'.lookup id = al.lookup id

section Entering

variable {al al' : ArgumentList D} {a : Argument D} {args : List (Argument D)}

lemma fresh_enter (hn : ∀ b ∈ args, b.id ≠ a.id) (h : al.index a.id ≠ MAX_ARGS) :
    fresh (al.enter a.id (write a) h) args = fresh al args := by
  refine filter_congr fun b hb => ?_
  by_cases hid : a.id ∈ al.ids
  · rw [ids_enter_of_mem (write_id a) hid h]
  · simp [ids_enter_of_not_mem (write_id a) hid h, hn b hb]

lemma fresh_cons_of_mem (hid : a.id ∈ al.ids) : fresh al (a :: args) = fresh al args := by
  simp [fresh, hid]

lemma fresh_cons_of_not_mem (hid : a.id ∉ al.ids) : fresh al (a :: args) = a :: fresh al args := by
  simp [fresh, hid]

lemma Entered.cons (h : al.index a.id ≠ MAX_ARGS) (hn : ∀ b ∈ args, b.id ≠ a.id)
    (hr : Entered (al.enter a.id (write a) h) args al') : Entered al (a :: args) al' := by
  have hf1 : fresh (al.enter a.id (write a) h) args = fresh al args := fresh_enter hn h
  by_cases hid : a.id ∈ al.ids
  · obtain ⟨-, hs⟩ := enter_of_mem (write a) hid h
    have hl := lookup_enter_of_mem (write_id a) hid h
    have hf : fresh al (a :: args) = fresh al args := fresh_cons_of_mem hid
    refine ⟨?_, fun b hb => ?_, fun id hne => ?_⟩
    · rw [hr.ids_eq, ids_enter_of_mem (write_id a) hid h, hf1, hf]
    · rcases mem_cons.mp hb with rfl | hb
      · obtain ⟨slot, hsl⟩ := isSome_iff_exists.mp (lookup_isSome hid)
        rw [hr.kept b.id hn, hl, if_pos rfl, place, hsl, some_or]
      · rw [hr.written b hb, place, hl, if_neg (hn b hb), hs, hf1, place, hf]
    · rw [hr.kept id fun b hb => hne b (.tail a hb), hl, if_neg (Ne.symm (hne a (.head _)))]
  · obtain ⟨slot, hs, hu⟩ := enter_of_not_mem (write a) hid h
    have hl (id : UInt32) : (al.enter a.id (write a) h).lookup id =
        if id = a.id then some (slot.write a) else al.lookup id := by
      rw [ArgumentList.lookup, hu]
      exact find_append_singleton (write_id a slot) hid id
    have hf : fresh al (a :: args) = a :: fresh al args := fresh_cons_of_not_mem hid
    refine ⟨?_, fun b hb => ?_, fun id hne => ?_⟩
    · rw [hr.ids_eq, ids_enter_of_not_mem (write_id a) hid h, hf1, hf]
      simp
    · rcases mem_cons.mp hb with rfl | hb
      · rw [hr.kept b.id hn, hl, if_pos rfl, place, lookup_eq_none hid, hf, hs]
        simp
      · rw [hr.written b hb, place, hl, if_neg (hn b hb), hf1, place, hf, hs,
          map_cons, idxOf_cons_ne _ (Ne.symm (hn b hb)), getElem?_cons_succ]
    · rw [hr.kept id fun b hb => hne b (.tail a hb), hl, if_neg (Ne.symm (hne a (.head _)))]

def Room (al : ArgumentList D) (args : List (Argument D)) : Prop :=
  al.nargs + (fresh al args).length ≤ MAX_ARGS

lemma Room.index_ne (hr : Room al (a :: args)) : al.index a.id ≠ MAX_ARGS := by
  unfold Room at hr
  by_cases hid : a.id ∈ al.ids
  · have hlt := index_lt hid
    rw [al.used_length] at hlt
    exact (lt_of_lt_of_le hlt al.nargs_le).ne
  · rw [fresh_cons_of_not_mem hid, length_cons] at hr
    rw [index_eq hid]
    omega

lemma Room.enter (hr : Room al (a :: args)) (hn : ∀ b ∈ args, b.id ≠ a.id) :
    Room (al.enter a.id (write a) hr.index_ne) args := by
  have h := hr
  unfold Room at h ⊢
  rw [fresh_enter hn, ← ids_length]
  by_cases hid : a.id ∈ al.ids
  · rw [fresh_cons_of_mem hid] at h
    rwa [ids_enter_of_mem (write_id a) hid, al.ids_length]
  · rw [fresh_cons_of_not_mem hid, length_cons] at h
    rw [ids_enter_of_not_mem (write_id a) hid, length_append, al.ids_length, length_singleton]
    omega

/-- **Entering arguments with distinct ids.** With room for them, all are entered. -/
theorem entered_foldl (hi : (args.map (·.id)).Nodup) (hr : Room al args) :
    ∃ al', args.foldl enterOne (al, false) = (al', false) ∧ Entered al args al' := by
  induction args generalizing al with
  | nil => exact ⟨al, rfl, by simp [fresh], by simp, fun _ _ => rfl⟩
  | cons a args ih =>
    rw [map_cons, nodup_cons] at hi
    have hn : ∀ b ∈ args, b.id ≠ a.id := fun b hb heq => hi.1 (mem_map.mpr ⟨b, hb, heq⟩)
    obtain ⟨al', hf, he⟩ := ih hi.2 (hr.enter hn)
    refine ⟨al', ?_, he.cons _ hn⟩
    rw [foldl_cons, enterOne, dif_pos hr.index_ne, hf]

end Entering

/-! ## What is seen of it -/

section Seen

variable {args : List (Argument D)} {al al' : ArgumentList D}

def Slot.lastByte (slot : Slot D) : UInt8 := slot.arg_string.getD (MAX_ARG_STRING - 1) 0

def Long (a : Argument D) : Prop :=
  match a.value with
  | .typeString s => s.chars.length = MAX_ARG_STRING - 1
  | _ => False

lemma Slot.drop_arg_string (slot : Slot D) :
    slot.arg_string.drop (MAX_ARG_STRING - 1) = [slot.lastByte] := by
  have hl := slot.arg_string_length
  have hlt : MAX_ARG_STRING - 1 < slot.arg_string.length := by
    rw [hl]
    decide
  have hle : slot.arg_string.length ≤ MAX_ARG_STRING - 1 + 1 := by
    rw [hl]
    decide
  rw [drop_eq_getElem_cons hlt, drop_eq_nil_of_le hle, lastByte, getD_eq_getElem _ _ hlt]

lemma Slot.view_of_cString {slot : Slot D} {id : UInt32} {s : CString MAX_ARG_STRING}
    {rest : Bytes} (ht : slot.type = .typeString) (hid : slot.id = id)
    (hs : slot.arg_string = s.chars ++ 0 :: rest) : slot.view = some ⟨id, .typeString s⟩ := by
  have hmem : (0 : UInt8) ∈ slot.arg_string := by simp [hs]
  have hc : cString slot.arg_string = s.chars := by rw [hs, cString_append_nul s.noNul]
  simp [view, ht, dif_pos hmem, hid, hc]

/-- **What is entered is what is seen**, unless a long string has a last byte behind it. -/
theorem Slot.view_write_iff (a : Argument D) (slot : Slot D) :
    (slot.write a).view = some a ↔ (Long a → slot.lastByte = 0) := by
  rcases a with ⟨id, v | s | d⟩
  · simp [write, view, Long, setInt, setID]
  · have hle : s.chars.length ≤ MAX_ARG_STRING - 1 := Nat.le_sub_one_of_lt s.fits
    have hs : (slot.write ⟨id, .typeString s⟩).arg_string = s.chars ++
        (replicate (MAX_ARG_STRING - 1 - s.chars.length) 0 ++ [slot.lastByte]) := by
      simp only [write, setString, setID, strncpy, cString_eq_self s.noNul,
        take_of_length_le hle, slot.drop_arg_string, append_assoc]
    by_cases hlo : s.chars.length = MAX_ARG_STRING - 1
    · rw [hlo, Nat.sub_self, replicate_zero, nil_append] at hs
      constructor
      · intro hv _
        by_contra hl
        have hmem : (0 : UInt8) ∉ (slot.write ⟨id, .typeString s⟩).arg_string := by
          rw [hs]
          simp [s.noNul, Ne.symm hl]
        have ht : (slot.write ⟨id, .typeString s⟩).type = .typeString := rfl
        simp [view, ht, dif_neg hmem] at hv
      · intro hl
        rw [hl hlo] at hs
        exact view_of_cString rfl rfl hs
    · refine ⟨fun _ h => absurd h hlo, fun _ => ?_⟩
      obtain ⟨n, hn⟩ : ∃ n, MAX_ARG_STRING - 1 - s.chars.length = n + 1 :=
        ⟨MAX_ARG_STRING - 1 - s.chars.length - 1, by omega⟩
      rw [hn, replicate_succ, cons_append] at hs
      exact view_of_cString rfl rfl hs
  · simp [write, view, Long, setDouble, setID]

/-- Every long string goes to a place whose last byte is NUL. -/
def Terminated (al : ArgumentList D) (args : List (Argument D)) : Prop :=
  ∀ a ∈ args, Long a → ∀ slot ∈ place al args a, slot.lastByte = 0

/-- The list has the arguments `args`, which replaced those with the same ids, and otherwise what it
had before. -/
structure Merged (al : ArgumentList D) (args : List (Argument D)) (al' : ArgumentList D) :
    Prop where
  ids_eq : al'.ids = al.ids ++ (fresh al args).map (·.id)
  value : ∀ a ∈ args, (al'.lookup a.id).bind Slot.view = some a
  kept : ∀ id, (∀ a ∈ args, a.id ≠ id) → al'.lookup id = al.lookup id

lemma place_isSome (hr : Room al args) {a : Argument D} (ha : a ∈ args) :
    (place al args a).isSome := by
  by_cases hid : a.id ∈ al.ids
  · simp [place, lookup_isSome hid]
  · have hf : a.id ∈ (fresh al args).map (·.id) :=
      mem_map.mpr ⟨a, mem_filter.mpr ⟨ha, by simpa using hid⟩, rfl⟩
    have hlt := idxOf_lt_length_of_mem hf
    have hs := al.nargs_add_spare
    unfold Room at hr
    rw [length_map] at hlt
    rw [place, lookup_eq_none hid, none_or, getElem?_eq_getElem (by omega)]
    rfl

lemma Entered.merged_iff (h : Entered al args al') (hr : Room al args) :
    Merged al args al' ↔ Terminated al args := by
  have hv : ∀ a ∈ args, (al'.lookup a.id).bind view = some a ↔
      (Long a → ∀ slot ∈ place al args a, slot.lastByte = 0) := by
    intro a ha
    obtain ⟨slot, hs⟩ := isSome_iff_exists.mp (place_isSome hr ha)
    rw [h.written a ha, hs, map_some, bind_some, slot.view_write_iff]
    simp
  constructor
  · intro hm a ha
    exact (hv a ha).mp (hm.value a ha)
  · intro ht
    exact ⟨h.ids_eq, fun a ha => (hv a ha).mpr (ht a ha), h.kept⟩

lemma Merged.room (h : Merged al args al') : Room al args := by
  have hi := congrArg length h.ids_eq
  rw [length_append, length_map, al'.ids_length, al.ids_length] at hi
  rw [Room, ← hi]
  exact al'.nargs_le

lemma map_view_eq {l : List (Slot D)} (hi : (args.map (·.id)).Nodup)
    (hl : l.map Slot.id = args.map (·.id))
    (hf : ∀ a ∈ args, (l.find? (·.id = a.id)).bind view = some a) :
    l.map view = args.map some := by
  induction args generalizing l with
  | nil => simpa using hl
  | cons a args ih =>
    rw [map_cons, nodup_cons] at hi
    obtain ⟨slot, l, rfl⟩ : ∃ slot l', l = slot :: l' := by
      cases l with
      | nil => simp at hl
      | cons slot l => exact ⟨slot, l, rfl⟩
    rw [map_cons, map_cons, cons.injEq] at hl
    have hv : slot.view = some a := by simpa [hl.1] using hf a mem_cons_self
    rw [map_cons, map_cons, hv, ih hi.2 hl.2 fun b hb => ?_]
    have hne : slot.id ≠ b.id := by
      rw [hl.1]
      exact fun heq => hi.1 (mem_map.mpr ⟨b, hb, heq.symm⟩)
    simpa [hne] using hf b (mem_cons_of_mem a hb)

lemma Merged.map_view (h : Merged al args al') (hi : (args.map (·.id)).Nodup)
    (he : al.nargs = 0) : al'.used.map view = args.map some := by
  have hn : al.ids = [] := eq_nil_of_length_eq_zero (by rw [al.ids_length, he])
  have hf : fresh al args = args := by simp [fresh, hn]
  have hi' := h.ids_eq
  rw [hn, hf, nil_append] at hi'
  exact map_view_eq hi hi' h.value

end Seen

end Glomop.Frontend
