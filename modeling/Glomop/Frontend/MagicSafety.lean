import Glomop.Frontend.UrlMagic

/-!
# Magic URLs from anywhere

A client can send any URL, and `from_magic` scans whatever `is_magic` lets through.  The scanner
follows the last `*` wherever it is, a long string runs over `strval`, and what a field does not set
is stored as an earlier field left it.
-/

namespace Glomop.UrlMagic

open Lib Rpc Frontend List ArgumentList Option Scanner

variable {D : Type}

def Parsed (scanDouble : Bytes → Option D) (type : ArgumentType) (text : Bytes) (v : Locals D) :
    Prop :=
  ∃ rest, scanUInt32 text = some v.id ∧ numberRest text = 61 :: rest ∧
    match type with
    | .typeString => rest.takeWhile (· ≠ MAGIC_DELIM) ≠ [] ∧
        rest.takeWhile (· ≠ MAGIC_DELIM) ++ [0] <+: v.strval
    | .typeInt => scanUInt32 rest = some v.intval
    | .typeDouble => scanDouble rest = some v.dblval

/-- A field that `sscanf` takes apart completely, and whose string fits into `strval`. -/
def Complete (scanDouble : Bytes → Option D) (type : ArgumentType) (text : Bytes) : Prop :=
  ∃ rest, (scanUInt32 text).isSome ∧ numberRest text = 61 :: rest ∧
    match type with
    | .typeString => rest.takeWhile (· ≠ MAGIC_DELIM) ≠ [] ∧
        (rest.takeWhile (· ≠ MAGIC_DELIM)).length < MAX_ARG_STRING
    | .typeInt => (scanUInt32 rest).isSome
    | .typeDouble => (scanDouble rest).isSome

/-- **The loop is safe**: no round reads or writes where it must not, and if one stores an argument,
then what was parsed from the current field. -/
def SafeFrom (scanDouble : Bytes → Option D) (formLength : ℕ) :
    Bytes → List Bytes → Scanner D → Prop
  | _, [], _ => False
  | pos, next :: nexts, st => ∃ st', st.round scanDouble pos = some st' ∧
      (∀ type, argumentType (pos.headD 0) = some type → st.al.index st'.locals.id ≠ MAX_ARGS →
        Parsed scanDouble type (pos.drop 1) st'.locals) ∧
      (formLength < next.length → SafeFrom scanDouble formLength next nexts st')

/-- The fields that the loop comes to; `none` if it leaves the URL. -/
def fieldsFrom (formLength : ℕ) : Bytes → List Bytes → Option (List Bytes)
  | _, [] => none
  | pos, next :: nexts =>
    if formLength < next.length then (fieldsFrom formLength next nexts).map (pos :: ·)
    else some [pos]

def fields (murl : Bytes) : Option (List Bytes) :=
  (strrchr murl MAGIC_START).bind fun start =>
    if start + 2 ≤ murl.length then
      fieldsFrom (murl.length - formStart murl) (murl.drop (start + 2))
        (delimited (murl.drop (start + 2)))
    else none

/-- **`from_magic` is safe**: it returns, with a list that is not too long and whose ids are
distinct if they were; and it stores only what it parsed from the current field. -/
def Safe (scanDouble : Bytes → Option D) (locals : Locals D) (al : ArgumentList D) (murl : Bytes) :
    Prop :=
  (∃ url al' ok, fromMagic scanDouble locals al murl = some (url, al', ok) ∧
    al'.nargs ≤ MAX_ARGS ∧ (al.ids.Nodup → al'.ids.Nodup)) ∧
  ∀ start, strrchr murl MAGIC_START = some start →
    SafeFrom scanDouble (murl.length - formStart murl) (murl.drop (start + 2))
      (delimited (murl.drop (start + 2))) ⟨al, locals, false⟩

variable {scanDouble : Bytes → Option D} {type : ArgumentType} {text pos : Bytes}
  {v v' : Locals D} {st st' : Scanner D} {formLength : ℕ} {nexts : List Bytes}

/-! ## One round -/

lemma scanID_eq {id : UInt32} {rest : Bytes} (hid : scanUInt32 text = some id)
    (hr : numberRest text = 61 :: rest) (v : Locals D) :
    scanID text v = ({ v with id := id }, some rest) := by
  simp [scanID, hid, hr]

lemma Complete.exists_scan (h : Complete scanDouble type text) (v : Locals D) :
    ∃ v', scanArgument scanDouble type text v = some v' ∧ Parsed scanDouble type text v' := by
  obtain ⟨rest, hid, hr, hv⟩ := h
  obtain ⟨id, hid⟩ := isSome_iff_exists.mp hid
  have hs := scanID_eq hid hr v
  cases type with
  | typeString =>
    obtain ⟨hne, hlt⟩ := hv
    let s := rest.takeWhile (· ≠ MAGIC_DELIM)
    refine ⟨{ v with id := id, strval := s ++ 0 :: v.strval.drop (s.length + 1) }, ?_, rest, hid,
      hr, hne, v.strval.drop (s.length + 1), by simp [s]⟩
    simp only [scanArgument, hs]
    rw [if_neg hne, if_pos hlt]
  | typeInt =>
    obtain ⟨i, hi⟩ := isSome_iff_exists.mp hv
    exact ⟨{ v with id := id, intval := i }, by simp [scanArgument, hs, hi], rest, hid, hr, hi⟩
  | typeDouble =>
    obtain ⟨d, hd⟩ := isSome_iff_exists.mp hv
    exact ⟨{ v with id := id, dblval := d }, by simp [scanArgument, hs, hd], rest, hid, hr, hd⟩

lemma Parsed.complete (h : Parsed scanDouble type text v')
    (hs : scanArgument scanDouble type text v = some v') : Complete scanDouble type text := by
  obtain ⟨rest, hid, hr, hv⟩ := h
  refine ⟨rest, by simp [hid], hr, ?_⟩
  cases type with
  | typeInt | typeDouble => simp [hv]
  | typeString =>
    refine ⟨hv.1, ?_⟩
    by_contra hl
    simp only [scanArgument, scanID_eq hid hr] at hs
    rw [if_neg hv.1, if_neg hl] at hs
    cases hs

lemma round_of_none (h : argumentType (pos.headD 0) = none) (st : Scanner D) :
    st.round scanDouble pos = some { st with error := true } := by
  simp only [Scanner.round, h]

lemma round_of_some (h : argumentType (pos.headD 0) = some type) :
    st.round scanDouble pos = some st' ↔
      ∃ v, scanArgument scanDouble type (pos.drop 1) st.locals = some v ∧
        st.store type v = st' ∧ st'.locals = v := by
  simp only [Scanner.round, h, map_eq_some_iff]
  refine exists_congr fun v => and_congr_right fun _ => ⟨fun hs => ⟨hs, ?_⟩, And.left⟩
  rw [← hs, store]
  split_ifs <;> rfl

lemma assign_id (v : Locals D) (type : ArgumentType) (slot : Slot D) :
    (v.assign type slot).id = v.id := by
  cases type <;> rfl

lemma ids_of_round (h : st.round scanDouble pos = some st') :
    st.al.ids ⊆ st'.al.ids ∧ (st.al.ids.Nodup → st'.al.ids.Nodup) := by
  unfold Scanner.round at h
  split at h
  · cases h
    exact ⟨fun _ => id, id⟩
  · next type _ =>
    obtain ⟨v, -, rfl⟩ := map_eq_some_iff.mp h
    unfold store
    split_ifs with hr
    · by_cases hid : v.id ∈ st.al.ids
      · rw [ids_enter_of_mem (assign_id v type) hid]
        exact ⟨fun _ => id, id⟩
      · rw [ids_enter_of_not_mem (assign_id v type) hid]
        refine ⟨subset_append_left _ _, fun hn => ?_⟩
        exact hn.append (nodup_singleton _) (by simpa using hid)
    · exact ⟨fun _ => id, id⟩

lemma SafeFrom.exists_loop (h : SafeFrom scanDouble formLength pos nexts st) :
    ∃ rest st', fromMagicLoop scanDouble formLength pos nexts st = some (rest, st') ∧
      (st.al.ids.Nodup → st'.al.ids.Nodup) := by
  induction nexts generalizing pos st with
  | nil => exact h.elim
  | cons next nexts ih =>
    obtain ⟨st1, hr, -, hne⟩ := h
    have hi := (ids_of_round hr).2
    rw [fromMagicLoop, hr, bind_some]
    split_ifs with hlt
    · obtain ⟨rest, st', hl, hn⟩ := ih (hne hlt)
      exact ⟨rest, st', hl, hn ∘ hi⟩
    · exact ⟨next, st1, rfl, hi⟩

def AllComplete (scanDouble : Bytes → Option D) (fs : List Bytes) : Prop :=
  ∀ f ∈ fs, ∀ type, argumentType (f.headD 0) = some type → Complete scanDouble type (f.drop 1)

/-- **Fields that are complete** are scanned safely. -/
theorem safeFrom_of_fields {fs : List Bytes} (hfi : fieldsFrom formLength pos nexts = some fs)
    (hfs : AllComplete scanDouble fs) (st : Scanner D) :
    SafeFrom scanDouble formLength pos nexts st := by
  have hr : ∀ pos, AllComplete scanDouble [pos] → ∀ st : Scanner D, ∃ st',
      st.round scanDouble pos = some st' ∧ ∀ type, argumentType (pos.headD 0) = some type →
        Parsed scanDouble type (pos.drop 1) st'.locals := by
    intro pos hpos st
    cases hl : argumentType (pos.headD 0) with
    | none => exact ⟨_, round_of_none hl st, nofun⟩
    | some type =>
      obtain ⟨v, hs, hp⟩ := (hpos pos (by simp) type hl).exists_scan st.locals
      have hlo : (st.store type v).locals = v := by
        unfold store
        split_ifs <;> rfl
      refine ⟨_, (round_of_some hl).mpr ⟨v, hs, rfl, hlo⟩, ?_⟩
      rintro _ ⟨⟩
      exact hlo.symm ▸ hp
  induction nexts generalizing pos fs st with
  | nil => cases hfi
  | cons next nexts ih =>
    rw [fieldsFrom] at hfi
    have hmem : pos ∈ fs := by
      split_ifs at hfi
      · obtain ⟨fs', -, rfl⟩ := map_eq_some_iff.mp hfi
        exact .head _
      · cases hfi
        exact mem_singleton_self pos
    obtain ⟨st', hrun, hp⟩ := hr pos (by simpa [AllComplete] using hfs pos hmem) st
    refine ⟨st', hrun, fun type ht _ => hp type ht, fun hlt => ?_⟩
    rw [if_pos hlt] at hfi
    obtain ⟨fs', hf', rfl⟩ := map_eq_some_iff.mp hfi
    exact ih hf' (fun f hf => hfs f (.tail _ hf)) st'

lemma index_ne_of_mem {al : ArgumentList D} {id : UInt32} (h : id ∈ al.ids) :
    al.index id ≠ MAX_ARGS := by
  have hlt := index_lt h
  have hle := al.nargs_le
  rw [al.used_length] at hlt
  omega

/-- **Fields that are scanned safely**, whatever argument is already in the list, are complete. -/
theorem exists_fields
    (hs : ∀ id, ∃ al error, id ∈ al.ids ∧ SafeFrom scanDouble formLength pos nexts ⟨al, v, error⟩) :
    ∃ fs, fieldsFrom formLength pos nexts = some fs ∧ AllComplete scanDouble fs := by
  induction nexts generalizing pos v with
  | nil =>
    obtain ⟨_, _, _, h⟩ := hs 0
    exact h.elim
  | cons next nexts ih =>
    obtain ⟨al0, error₀, -, st0, hr0, -⟩ := hs 0
    -- the variables after the round do not depend on the list
    have hlo : ∀ {al error st'}, (⟨al, v, error⟩ : Scanner D).round scanDouble pos = some st' →
        st'.locals = st0.locals := by
      intro al error st' hr
      cases hl : argumentType (pos.headD 0) with
      | none =>
        rw [round_of_none hl] at hr hr0
        cases hr
        cases hr0
        rfl
      | some type =>
        obtain ⟨v', hsc, -, rfl⟩ := (round_of_some hl).mp hr
        obtain ⟨v0, hs0, -, rfl⟩ := (round_of_some hl).mp hr0
        exact some.inj (hsc.symm.trans hs0)
    have hpos : AllComplete scanDouble [pos] := by
      rintro f hf type hl
      obtain rfl := mem_singleton.mp hf
      obtain ⟨al, error, hmem, st', hr, hp, -⟩ := hs st0.locals.id
      rw [← hlo hr] at hmem
      obtain ⟨v', hsc, -, rfl⟩ := (round_of_some hl).mp hr
      exact (hp type hl (index_ne_of_mem hmem)).complete hsc
    rw [fieldsFrom]
    split_ifs with hlt
    · obtain ⟨fs, hfs, hc⟩ := @ih next st0.locals fun id => by
        obtain ⟨al, error, hmem, st', hr, -, hn⟩ := hs id
        refine ⟨st'.al, st'.error, (ids_of_round hr).1 hmem, ?_⟩
        rw [← hlo hr]
        exact hn hlt
      exact ⟨pos :: fs, by rw [hfs]; rfl, forall_mem_cons.mpr ⟨hpos pos (by simp), hc⟩⟩
    · exact ⟨[pos], rfl, hpos⟩

def listWith (id : UInt32) (d : D) : ArgumentList D where
  nargs := 1
  arg := List.replicate MAX_ARGS
    ⟨.typeInt, id, 0, List.replicate MAX_ARG_STRING 0, d, length_zeros⟩
  arg_length := length_replicate
  nargs_le := one_le_maxArgs

/-- **For which URLs `from_magic` is safe**, with every argument list: exactly if it does not leave
the URL and all fields that it comes to are complete. -/
theorem fromMagic_safe_iff (scanDouble : Bytes → Option D) (locals : Locals D) (murl : Bytes)
    (hmagic : isMagic murl = true) :
    (∀ al, Safe scanDouble locals al murl) ↔
      ∃ fs, fields murl = some fs ∧ AllComplete scanDouble fs := by
  constructor
  · intro hsa
    obtain ⟨⟨_, _, _, hr, -⟩, -⟩ := hsa (listWith 0 locals.dblval)
    rw [fromMagic, if_pos hmagic] at hr
    cases hs : strrchr murl MAGIC_START with
    | none => simp [hs] at hr
    | some start =>
      have hlen : start + 2 ≤ murl.length := by
        by_contra hlen
        simp [hs, hlen] at hr
      obtain ⟨fs, hfs, hc⟩ := exists_fields fun id =>
        ⟨listWith id locals.dblval, false, by simp [ids, used, listWith,
          MAX_ARGS], (hsa (listWith id locals.dblval)).2 start hs⟩
      exact ⟨fs, by rw [fields, hs, bind_some, if_pos hlen, hfs], hc⟩
  · rintro ⟨fs, hf, hc⟩ al
    obtain ⟨start, hs, hf⟩ := bind_eq_some_iff.mp hf
    obtain ⟨hlen, hf⟩ := ite_none_right_eq_some.mp hf
    have hsa := safeFrom_of_fields hf hc ⟨al, locals, false⟩
    obtain ⟨rest, st', hl, hn⟩ := hsa.exists_loop
    refine ⟨⟨murl.take start ++ rest, st'.al, !st'.error, ?_, st'.al.nargs_le, hn⟩, ?_⟩
    · simp [fromMagic, if_pos hmagic, hs, if_pos hlen, hl]
    · rintro _ hs'
      cases hs.symm.trans hs'
      exact hsa

/-- `u*^i1=5^`. -/
theorem fromMagic_safe_one :
    isMagic [117, 42, 94, 105, 49, 61, 53, 94] = true ∧
      ∀ al, Safe (fun _ => none) sampleLocals al [117, 42, 94, 105, 49, 61, 53, 94] := by
  have hm : isMagic [117, 42, 94, 105, 49, 61, 53, 94] = true := by decide
  refine ⟨hm, (fromMagic_safe_iff _ _ _ hm).mpr ⟨[[105, 49, 61, 53, 94]], by decide, ?_⟩⟩
  rintro f hf type ht
  obtain rfl := mem_singleton.mp hf
  cases ht
  exact ⟨[53, 94], by decide, by decide, by decide⟩

/-- **A star in the form and a value left over**: for `u*^a^?*` the scanner starts behind the end of
the URL, and `u*^i7=5^i8^` stores the value of the argument 7 as that of the argument 8. -/
theorem fromMagic_unsafe :
    isMagic [117, 42, 94, 97, 94, 63, 42] = true ∧
      (fromMagic (fun _ => none) sampleLocals emptyList [117, 42, 94, 97, 94, 63, 42]).isNone ∧
      isMagic [117, 42, 94, 105, 55, 61, 53, 94, 105, 56, 94] = true ∧
      (fromMagic (fun _ => none) sampleLocals emptyList
        [117, 42, 94, 105, 55, 61, 53, 94, 105, 56, 94]).map
          (fun r => (r.2.1.lookup 8).map Slot.arg_int) = some (some 5) := by
  decide +kernel

end Glomop.UrlMagic
