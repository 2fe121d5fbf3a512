import Glomop.Frontend.Arguments
import Glomop.Share.Strtok

/-!
# Changing preferences

`set_oneuserpref` replaces or adds one argument, and `parse_and_change_prefs` goes through the
tokens `xid=value` of a URL.  `Change.changed` says what both come to if the ids of the list are
distinct and there is room for new ones.
-/

namespace Glomop.Frontend

open Lib Rpc List ArgumentList Option

variable {D : Type}

/-- The local edit of `set_oneuserpref`; `none` where the list is full.
`userpref.c` `set_oneuserpref`. -/
def setOne (a : Slot D) (al : ArgumentList D) : Option (ArgumentList D) :=
  if h : al.index a.id ≠ MAX_ARGS then some (al.enter a.id (fun _ => a) h) else none

def ArgumentList.claim (al : ArgumentList D) (id : UInt32) (h : al.nargs < MAX_ARGS) :
    ArgumentList D where
  nargs := al.nargs + 1
  arg := al.arg.modify al.nargs (·.setID id)
  arg_length := by rw [length_modify, al.arg_length]
  nargs_le := h

def ArgumentList.modifyAt (al : ArgumentList D) (i : ℕ) (write : Slot D → Slot D) :
    ArgumentList D :=
  { al with
    arg := al.arg.modify i write
    arg_length := by rw [length_modify, al.arg_length] }

/-- The arguments behind the first one with the id move down by one place.
`parse_upref.c` `remove_from_arglist`. -/
def ArgumentList.remove (al : ArgumentList D) (id : UInt32) : ArgumentList D :=
  if h : id ∈ al.ids then
    { nargs := al.nargs - 1
      arg := al.used.eraseIdx (al.index id) ++ (al.used.drop (al.nargs - 1) ++ al.spare)
      arg_length := by
        have hlt := index_lt h
        have hspare := al.nargs_add_spare
        rw [length_append, length_append, length_eraseIdx_of_lt hlt, length_drop]
        rw [al.used_length] at hlt ⊢
        omega
      nargs_le := (Nat.sub_le _ _).trans al.nargs_le }
  else al

structure Token where
  letter : UInt8
  id : UInt32
  value : Bytes
deriving DecidableEq

open Token

/-- `none` where the token has no `=` or no id. -/
def parseToken (text : Bytes) : Option Token :=
  if 61 ∈ text then
    (scanUInt32 (text.drop 1)).map fun id =>
      ⟨text.headD 0, id, (text.dropWhile (· ≠ 61)).drop 1⟩
  else none

section

variable (scanDouble : Bytes → Option D)

def Token.writer (t : Token) : Option (Slot D → Slot D) :=
  if t.letter = 105 then (scanUInt32 t.value).map fun n slot => slot.setInt n.toInt32
  else if t.letter = 102 then (scanDouble t.value).map fun d slot => slot.setDouble d
  else if t.letter = 115 then some fun slot => slot.setString t.value
  else none

/-- The `switch` of the loop, for the argument at the place `argct`. -/
def Token.write (t : Token) (al : ArgumentList D) (argct : ℕ) : Option (ArgumentList D) :=
  if t.letter = 105 ∨ t.letter = 102 ∨ t.letter = 115 then
    if t.value = [] then some (al.remove t.id)
    else (t.writer scanDouble).map (al.modifyAt argct)
  else none

def Token.apply (al : ArgumentList D) (t : Token) : Option (ArgumentList D) :=
  match lastIndex t.id al.ids 0 none with
  | some argct => t.write scanDouble al argct
  | none =>
    if h : al.nargs < MAX_ARGS then t.write scanDouble (al.claim t.id h) al.nargs else some al

def tokenTexts (url : Bytes) : List Bytes := tokens [38] ((url.dropWhile (· ≠ 63)).drop 1)

/-- The local edit of `parse_and_change_prefs`; `none` where it returns an error.  Without a token,
`error_string` is read as it was before the loop, where nothing has set it.
`parse_upref.c` `parse_and_change_prefs`. -/
def parseAndChange (url : Bytes) (errorString : Bool) (al : ArgumentList D) :
    Option (ArgumentList D) :=
  if 63 ∈ url then
    if tokenTexts url = [] then if errorString then none else some al
    else
      (tokenTexts url).foldlM (fun al text => (parseToken text).bind (Token.apply scanDouble al)) al
  else none

end

/-! ## Single edits -/

structure EditedAt (ids : List UInt32) (al al' : ArgumentList D) : Prop where
  nodup : al'.ids.Nodup
  other : ∀ id, id ∉ ids → al'.lookup id = al.lookup id

lemma setOne_spec {a : Slot D} {al al' : ArgumentList D} (hi : al.ids.Nodup)
    (h : setOne a al = some al') : EditedAt [a.id] al al' ∧ al'.lookup a.id = some a := by
  unfold setOne at h
  split_ifs at h with hr
  cases h
  by_cases hid : a.id ∈ al.ids
  · have hl (id : UInt32) : (al.enter a.id (fun _ => a) hr).lookup id =
        if id = a.id then (al.lookup id).map (fun _ => a) else al.lookup id :=
      lookup_enter_of_mem (fun _ => rfl) hid hr id
    refine ⟨⟨?_, fun id hne => ?_⟩, ?_⟩
    · rw [ids_enter_of_mem (fun _ => rfl) hid hr]
      exact hi
    · rw [hl, if_neg (by simpa using hne)]
    · obtain ⟨slot, hs⟩ := isSome_iff_exists.mp (lookup_isSome hid)
      rw [hl, if_pos rfl, hs, map_some]
  · obtain ⟨slot, -, hu⟩ := enter_of_not_mem (fun _ => a) hid hr
    have hl (id : UInt32) : (al.enter a.id (fun _ => a) hr).lookup id =
        if id = a.id then some a else al.lookup id := by
      rw [ArgumentList.lookup, hu]
      exact find_append_singleton rfl hid id
    refine ⟨⟨?_, fun id hne => ?_⟩, ?_⟩
    · rw [ids_enter_of_not_mem (fun _ => rfl) hid hr]
      exact hi.append (nodup_singleton _) (by simpa using hid)
    · rw [hl, if_neg (by simpa using hne)]
    · rw [hl, if_pos rfl]

lemma find_eraseIdx {l : List (Slot D)} (hi : (l.map Slot.id).Nodup) (id id' : UInt32) :
    (l.eraseIdx ((l.map Slot.id).idxOf id)).find? (·.id = id') =
      if id' = id then none else l.find? (·.id = id') := by
  induction l with
  | nil => simp
  | cons slot l ih =>
    rw [map_cons, nodup_cons] at hi
    by_cases h : slot.id = id
    · -- the first one goes, and no other has its id
      have he : (slot :: l).eraseIdx (((slot :: l).map Slot.id).idxOf id) = l := by
        simp [h]
      rw [he]
      by_cases hid : id' = id
      · rw [if_pos hid]
        refine find?_eq_none.mpr fun slot' hs' => ?_
        have hne : slot'.id ≠ id' := fun heq =>
          hi.1 (mem_map.mpr ⟨slot', hs', by rw [heq, hid, h]⟩)
        simpa using hne
      · have hne : slot.id ≠ id' := fun heq => hid (heq.symm.trans h)
        simp [hid, hne]
    · have he : (slot :: l).eraseIdx (((slot :: l).map Slot.id).idxOf id) =
          slot :: l.eraseIdx ((l.map Slot.id).idxOf id) := by
        rw [map_cons, idxOf_cons_ne _ h, eraseIdx_cons_succ]
      rw [he, find?_cons, find?_cons]
      by_cases hid : slot.id = id'
      · have hne : id' ≠ id := fun heq => h (hid.trans heq)
        simp [hid, hne]
      · simpa [hid] using ih hi.2

namespace ArgumentList

variable {al : ArgumentList D} {id : UInt32}

lemma mem_ids : id ∈ al.ids ↔ (al.lookup id).isSome := by
  refine ⟨lookup_isSome, fun h => ?_⟩
  by_contra hid
  rw [lookup_eq_none hid] at h
  cases h

lemma used_modifyAt (al : ArgumentList D) (i : ℕ) (write : Slot D → Slot D) :
    (al.modifyAt i write).used = al.used.modify i write := by
  exact take_modify write i al.nargs al.arg

lemma used_claim (al : ArgumentList D) (id : UInt32) (h : al.nargs < MAX_ARGS) :
    ∃ slot : Slot D, slot.id = id ∧ (al.claim id h).used = al.used ++ [slot] := by
  have hl : al.nargs < al.arg.length := by rwa [al.arg_length]
  refine ⟨al.arg[al.nargs].setID id, rfl, ?_⟩
  have hm : al.nargs < (al.arg.modify al.nargs (·.setID id)).length := by
    rwa [length_modify]
  change (al.arg.modify al.nargs (·.setID id)).take (al.nargs + 1) = _
  rw [take_add_one, getElem?_eq_getElem hm]
  congr 1
  · rw [take_modify, modify_eq_self (length_take_le _ _)]
    rfl
  · simp

lemma used_remove (h : id ∈ al.ids) : (al.remove id).used = al.used.eraseIdx (al.index id) := by
  have hl : (al.used.eraseIdx (al.index id)).length = al.nargs - 1 := by
    rw [length_eraseIdx_of_lt (index_lt h), al.used_length]
  rw [remove, dif_pos h]
  exact take_left' hl

lemma lookup_remove (hi : al.ids.Nodup) (h : id ∈ al.ids) (id' : UInt32) :
    (al.remove id).lookup id' = if id' = id then none else al.lookup id' := by
  rw [lookup, used_remove h]
  exact find_eraseIdx hi id id'

lemma editedAt_remove (hi : al.ids.Nodup) (h : id ∈ al.ids) : EditedAt [id] al (al.remove id) := by
  refine ⟨?_, fun id' hi' => ?_⟩
  · rw [ids, used_remove h, ← eraseIdx_map]
    exact (eraseIdx_sublist _ _).nodup hi
  · rw [lookup_remove hi h, if_neg (by simpa using hi')]

section Write

variable {write : Slot D → Slot D} (hwrite : ∀ slot, (write slot).id = slot.id)

include hwrite

lemma lookup_modifyAt (id' : UInt32) :
    (al.modifyAt (al.index id) write).lookup id' =
      if id' = id then (al.lookup id').map write else al.lookup id' := by
  rw [lookup, used_modifyAt]
  exact find_modify (fun slot hs => (hwrite slot).trans hs) al.used id'

lemma editedAt_modifyAt (hi : al.ids.Nodup) :
    EditedAt [id] al (al.modifyAt (al.index id) write) := by
  refine ⟨?_, fun id' hi' => ?_⟩
  · rw [ids, used_modifyAt]
    exact (map_id_modify (fun slot hs => (hwrite slot).trans hs) al.used).symm ▸ hi
  · rw [lookup_modifyAt hwrite, if_neg (by simpa using hi')]

end Write

lemma lastIndex_ids (hi : al.ids.Nodup) (h : id ∈ al.ids) :
    lastIndex id al.ids 0 none = some (al.index id) := by
  obtain ⟨a, b, heq, hb⟩ := exists_last h
  have ha : id ∉ a := by
    rw [heq, nodup_append] at hi
    exact fun hmem => hi.2.2 id hmem id (.head _) rfl
  rw [index, ← ids, heq, lastIndex_eq a hb, idxOf_append_of_notMem ha, idxOf_cons_self,
    Nat.add_zero]

lemma claim_spec (hi : al.ids.Nodup) (hid : id ∉ al.ids) (h : al.nargs < MAX_ARGS) :
    EditedAt [id] al (al.claim id h) ∧ id ∈ (al.claim id h).ids ∧
      (al.claim id h).index id = al.nargs := by
  obtain ⟨slot, hs, hu⟩ := al.used_claim id h
  have hc : (al.claim id h).ids = al.ids ++ [id] := by simp [ids, hu, hs]
  refine ⟨⟨?_, fun id' hi' => ?_⟩, ?_, ?_⟩
  · rw [hc]
    exact hi.append (nodup_singleton _) (by simpa using hid)
  · rw [lookup, hu, find_append_singleton hs hid, if_neg (by simpa using hi')]
  · rw [hc]
    exact mem_append_right _ (.head _)
  · rw [index, ← ids, hc, idxOf_append_of_notMem hid, idxOf_cons_self, Nat.add_zero, ids_length]

end ArgumentList

section Tokens

variable {scanDouble : Bytes → Option D} {al al' : ArgumentList D} {t : Token}

lemma EditedAt.trans {ids ids' : List UInt32} {al1 : ArgumentList D} (h : EditedAt ids al al1)
    (h' : EditedAt ids' al1 al') : EditedAt (ids ++ ids') al al' :=
  ⟨h'.nodup, fun id hid => by
    rw [mem_append, not_or] at hid
    rw [h'.other id hid.2, h.other id hid.1]⟩

lemma EditedAt.mono {ids ids' : List UInt32} (h : EditedAt ids al al') (hle : ids ⊆ ids') :
    EditedAt ids' al al' :=
  ⟨h.nodup, fun id hid => h.other id fun hmem => hid (hle hmem)⟩

lemma Token.writer_id {write : Slot D → Slot D} (h : t.writer scanDouble = some write)
    (slot : Slot D) : (write slot).id = slot.id := by
  unfold writer at h
  split_ifs at h
  · obtain ⟨n, -, rfl⟩ := map_eq_some_iff.mp h
    rfl
  · obtain ⟨d, -, rfl⟩ := map_eq_some_iff.mp h
    rfl
  · cases h
    rfl

/-- What an argument list has under the id of a token: an argument that the value was written to,
and none if the value is empty. -/
def Token.Shows (scanDouble : Bytes → Option D) (t : Token) (found : Option (Slot D)) : Prop :=
  if t.value = [] then found = none
  else ∃ write slot, t.writer scanDouble = some write ∧ found = some (write slot)

lemma Token.write_spec (hi : al.ids.Nodup) (hid : t.id ∈ al.ids)
    (h : t.write scanDouble al (al.index t.id) = some al') :
    EditedAt [t.id] al al' ∧ t.Shows scanDouble (al'.lookup t.id) := by
  unfold write at h
  unfold Token.Shows
  split_ifs at h ⊢ with hl hv
  · cases h
    refine ⟨editedAt_remove hi hid, ?_⟩
    rw [lookup_remove hi hid, if_pos rfl]
  · obtain ⟨write, hw, rfl⟩ := map_eq_some_iff.mp h
    have hwrite := writer_id hw
    obtain ⟨slot, hs⟩ := isSome_iff_exists.mp (lookup_isSome hid)
    refine ⟨editedAt_modifyAt hwrite hi, write, slot, hw, ?_⟩
    rw [lookup_modifyAt hwrite, if_pos rfl, hs, map_some]

lemma Token.apply_spec (his : al.ids.Nodup) (hf : (insert t.id al.ids.toFinset).card ≤ MAX_ARGS)
    (h : apply scanDouble al t = some al') :
    EditedAt [t.id] al al' ∧ t.Shows scanDouble (al'.lookup t.id) := by
  unfold apply at h
  by_cases hid : t.id ∈ al.ids
  · rw [lastIndex_ids his hid] at h
    exact write_spec his hid h
  · have hr : al.nargs < MAX_ARGS := by
      rw [Finset.card_insert_of_notMem (by simpa using hid), toFinset_card_of_nodup his,
        al.ids_length] at hf
      exact hf
    rw [lastIndex_of_not_mem hid] at h
    simp only [dif_pos hr] at h
    obtain ⟨hc, hmem, hi⟩ := claim_spec his hid hr
    rw [← hi] at h
    obtain ⟨he, hs⟩ := write_spec hc.nodup hmem h
    exact ⟨(hc.trans he).mono (by simp), hs⟩

def Token.idsAfter (t : Token) (ids : Finset UInt32) : Finset UInt32 :=
  if t.value = [] then ids.erase t.id else insert t.id ids

lemma Token.ids_apply (he : EditedAt [t.id] al al') (hs : t.Shows scanDouble (al'.lookup t.id)) :
    al'.ids.toFinset = t.idsAfter al.ids.toFinset := by
  ext id
  by_cases hid : id = t.id
  · subst hid
    unfold Token.Shows at hs
    unfold idsAfter
    split_ifs at hs ⊢ with hv
    · simp [mem_ids, hs]
    · obtain ⟨write, slot, -, hsl⟩ := hs
      simp [mem_ids, hsl]
  · have ho := he.other id (by simpa using hid)
    unfold idsAfter
    split_ifs <;> simp [mem_ids, ho, hid]

/-- Every token finds an argument with its id or a free place when its turn comes, in a list that
has the given ids before the first one. -/
def AllFit : Finset UInt32 → List Token → Prop
  | _, [] => True
  | ids, t :: ts => (insert t.id ids).card ≤ MAX_ARGS ∧ AllFit (t.idsAfter ids) ts

instance AllFit.decidable : (ids : Finset UInt32) → (ts : List Token) → Decidable (AllFit ids ts)
  | _, [] => inferInstanceAs (Decidable True)
  | ids, t :: ts =>
    haveI := AllFit.decidable (t.idsAfter ids) ts
    inferInstanceAs (Decidable (_ ∧ _))

def AllShow (scanDouble : Bytes → Option D) (ts : List Token) (al : ArgumentList D) : Prop :=
  ∀ a t b, ts = a ++ t :: b → t.id ∉ b.map (·.id) → t.Shows scanDouble (al.lookup t.id)

lemma apply_tokens_spec {ts : List Token} (hi : al.ids.Nodup) (hf : AllFit al.ids.toFinset ts)
    (h : ts.foldlM (apply scanDouble) al = some al') :
    EditedAt (ts.map (·.id)) al al' ∧ AllShow scanDouble ts al' := by
  induction ts generalizing al with
  | nil =>
    cases h
    exact ⟨⟨hi, fun _ _ => rfl⟩, fun a t b heq => by simp at heq⟩
  | cons t ts ih =>
    rw [foldlM_cons] at h
    obtain ⟨al1, ha, hr⟩ := bind_eq_some_iff.mp h
    obtain ⟨he, hs⟩ := apply_spec hi hf.1 ha
    obtain ⟨he', hal⟩ := ih he.nodup (ids_apply he hs ▸ hf.2) hr
    refine ⟨he.trans he', fun a t' b heq hl => ?_⟩
    cases a with
    | nil =>
      -- the tokens behind the first one leave its id alone
      obtain ⟨rfl, rfl⟩ := cons.inj heq
      rwa [he'.other _ hl]
    | cons u a =>
      obtain ⟨-, heq⟩ := cons.inj heq
      exact hal a t' b heq hl

def urlTokens (url : Bytes) : List Token := (tokenTexts url).filterMap parseToken

lemma foldlM_texts {texts : List Bytes}
    (h : texts.foldlM (fun al text => (parseToken text).bind (apply scanDouble al)) al = some al') :
    (texts.filterMap parseToken).foldlM (apply scanDouble) al = some al' := by
  induction texts generalizing al with
  | nil => exact h
  | cons text texts ih =>
    rw [foldlM_cons] at h
    obtain ⟨al1, ho, hr⟩ := bind_eq_some_iff.mp h
    obtain ⟨t, ht, ha⟩ := bind_eq_some_iff.mp ho
    rw [filterMap_cons_some ht, foldlM_cons, ha]
    exact ih hr

lemma parseAndChange_spec {url : Bytes} {errorString : Bool} (hi : al.ids.Nodup)
    (hf : AllFit al.ids.toFinset (urlTokens url))
    (h : parseAndChange scanDouble url errorString al = some al') :
    EditedAt ((urlTokens url).map (·.id)) al al' ∧ AllShow scanDouble (urlTokens url) al' := by
  unfold parseAndChange at h
  split_ifs at h with hq hn her
  · cases h
    have he : urlTokens url = [] := by rw [urlTokens, hn, filterMap_nil]
    exact ⟨⟨hi, fun _ _ => rfl⟩, fun a t b heq => by simp [he] at heq⟩
  · exact apply_tokens_spec hi hf (foldlM_texts h)

end Tokens

inductive Change (D : Type)
  | one (a : Slot D)
  | parse (url : Bytes) (errorString : Bool)

namespace Change

/-- What the change does to the list it has fetched; `none` where it is given up. -/
def edit (scanDouble : Bytes → Option D) : Change D → ArgumentList D → Option (ArgumentList D)
  | one a, al => setOne a al
  | parse url errorString, al => parseAndChange scanDouble url errorString al

def ids : Change D → List UInt32
  | one a => [a.id]
  | parse url _ => (urlTokens url).map (·.id)

/-- There is room for what the change adds.  `set_oneuserpref` is given up if there is none. -/
def Fits : Change D → ArgumentList D → Prop
  | one _, _ => True
  | parse url _, al => AllFit al.ids.toFinset (urlTokens url)

def Present (scanDouble : Bytes → Option D) : Change D → ArgumentList D → Prop
  | one a, al => al.lookup a.id = some a
  | parse url _, al => AllShow scanDouble (urlTokens url) al

variable {scanDouble : Bytes → Option D} {c : Change D} {al al' : ArgumentList D}

/-- **What a change does**: it is present in the new list, whose other arguments are the old
ones. -/
theorem changed (hi : al.ids.Nodup) (hf : c.Fits al) (h : c.edit scanDouble al = some al') :
    EditedAt c.ids al al' ∧ c.Present scanDouble al' := by
  cases c with
  | one a => exact setOne_spec hi h
  | parse url errorString => exact parseAndChange_spec hi hf h

lemma Present.congr (hp : c.Present scanDouble al)
    (h : ∀ id ∈ c.ids, al'.lookup id = al.lookup id) : c.Present scanDouble al' := by
  cases c with
  | one a => exact (h a.id (.head _)).trans hp
  | parse url errorString =>
    intro a t b heq hl
    have hmem : t.id ∈ (urlTokens url).map (·.id) := by simp [heq]
    rw [h t.id hmem]
    exact hp a t b heq hl

end Change

end Glomop.Frontend
