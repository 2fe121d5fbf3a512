import Glomop.Frontend.UserPref

/-!
# The preference form

The tokens of a form are applied from left to right, each as an update of a map from ids to
arguments, and an error leaves the stored list as it is.  Without a token the result depends on a
variable that nothing has set, and a long string is terminated only by a NUL that was there before
(`preference_form_iff`).
-/

namespace Glomop.Frontend

open Lib Rpc List ArgumentList Option Token

variable {D : Type} {scanDouble : Bytes → Option D} {al al' : ArgumentList D} {t : Token}

/-- **The update** that a token stands for: a value sets, an empty value deletes, and a new id is
ignored if the list is full. -/
def Token.Updates (scanDouble : Bytes → Option D) (t : Token) (al al' : ArgumentList D) : Prop :=
  if t.id ∉ al.ids ∧ al.nargs = MAX_ARGS then al' = al
  else EditedAt [t.id] al al' ∧ t.Shows scanDouble (al'.lookup t.id)

def Applied (scanDouble : Bytes → Option D) : List Token → ArgumentList D → ArgumentList D → Prop
  | [], al, al' => al' = al
  | t :: ts, al, al' => ∃ al₁, t.Updates scanDouble al al₁ ∧ Applied scanDouble ts al₁ al'

/-- The last byte of the place is NUL, so that every string in it is terminated. -/
abbrev Slot.Sealed (slot : Slot D) : Prop := slot.arg_string[MAX_ARG_STRING - 1]? = some 0

/-- **What a form should do**, to a list with the `errorString` that happens to be there. -/
def FormRight (scanDouble : Bytes → Option D) (url : Bytes) (errorString : Bool)
    (al : ArgumentList D) : Prop :=
  match parseAndChange scanDouble url errorString al with
  | none => ¬ (63 ∈ url ∧ tokenTexts url = [])
  | some al' =>
    Applied scanDouble (urlTokens url) al al' ∧ al'.ids.Nodup ∧ ∀ slot ∈ al'.arg, slot.Sealed

/-! ## Terminated strings -/

lemma forall_mem_modify {α : Type} {p : α → Prop} {f : α → α} {l : List α}
    (hf : ∀ x, p x → p (f x)) (hl : ∀ x ∈ l, p x) (i : ℕ) : ∀ x ∈ l.modify i f, p x := by
  induction l generalizing i with
  | nil => simp
  | cons y l ih =>
    rw [forall_mem_cons] at hl
    cases i with
    | zero => exact forall_mem_cons.mpr ⟨hf y hl.1, hl.2⟩
    | succ i => exact forall_mem_cons.mpr ⟨hl.1, ih hl.2 i⟩

lemma Slot.Sealed.setString {slot : Slot D} (h : slot.Sealed) (s : Bytes) :
    (slot.setString s).Sealed := by
  have hl : ((cString s).take (MAX_ARG_STRING - 1) ++ List.replicate
      (MAX_ARG_STRING - 1 - ((cString s).take (MAX_ARG_STRING - 1)).length) (0 : UInt8)).length =
      MAX_ARG_STRING - 1 := by
    rw [length_append, length_replicate, length_take]
    omega
  change (strncpy slot.arg_string s (MAX_ARG_STRING - 1))[MAX_ARG_STRING - 1]? = some 0
  rw [strncpy, getElem?_append_right hl.le, hl, Nat.sub_self, getElem?_drop]
  exact h

lemma Token.writer_sealed {write : Slot D → Slot D} (h : t.writer scanDouble = some write)
    (slot : Slot D) (hs : slot.Sealed) : (write slot).Sealed := by
  unfold writer at h
  split_ifs at h
  · obtain ⟨n, -, rfl⟩ := map_eq_some_iff.mp h
    exact hs
  · obtain ⟨d, -, rfl⟩ := map_eq_some_iff.mp h
    exact hs
  · cases h
    exact hs.setString t.value

lemma Token.write_sealed {argct : ℕ} (h : t.write scanDouble al argct = some al')
    (hal : ∀ slot ∈ al.arg, slot.Sealed) : ∀ slot ∈ al'.arg, slot.Sealed := by
  unfold write at h
  split_ifs at h
  · cases h
    unfold ArgumentList.remove
    split_ifs
    · -- every place keeps an argument of the list
      intro slot hs
      refine hal slot ?_
      rw [al.arg_eq]
      simp only [mem_append] at hs ⊢
      rcases hs with hs | hs | hs
      · exact .inl (mem_of_mem_eraseIdx hs)
      · exact .inl (mem_of_mem_drop hs)
      · exact .inr hs
    · exact hal
  · obtain ⟨write, hw, rfl⟩ := map_eq_some_iff.mp h
    exact forall_mem_modify (writer_sealed hw) hal argct

lemma Token.apply_sealed (h : apply scanDouble al t = some al')
    (hal : ∀ slot ∈ al.arg, slot.Sealed) : ∀ slot ∈ al'.arg, slot.Sealed := by
  unfold apply at h
  split at h
  · exact write_sealed h hal
  · split_ifs at h
    · have hid (slot : Slot D) (hs : slot.Sealed) : (slot.setID t.id).Sealed := hs
      exact write_sealed h (forall_mem_modify hid hal _)
    · cases h
      exact hal

/-! ## Updates -/

lemma Token.apply_updates (hi : al.ids.Nodup) (h : apply scanDouble al t = some al') :
    t.Updates scanDouble al al' ∧ al'.ids.Nodup := by
  unfold Token.Updates
  split_ifs with hf
  · unfold apply at h
    rw [lastIndex_of_not_mem hf.1] at h
    simp only [hf.2, lt_irrefl, dite_false, some.injEq] at h
    exact ⟨h.symm, h ▸ hi⟩
  · have hs := apply_spec hi ?_ h
    · exact ⟨hs, hs.1.nodup⟩
    · rw [not_and_or, not_not] at hf
      by_cases hid : t.id ∈ al.ids
      · rw [Finset.insert_eq_of_mem (by simpa using hid)]
        exact (toFinset_card_le _).trans (al.ids_length.trans_le al.nargs_le)
      · rw [Finset.card_insert_of_notMem (by simpa using hid), toFinset_card_of_nodup hi,
          al.ids_length]
        exact lt_of_le_of_ne al.nargs_le (hf.resolve_left hid)

/-- **A run of the loop** over tokens. -/
lemma apply_tokens_updates {ts : List Token} (hi : al.ids.Nodup)
    (hal : ∀ slot ∈ al.arg, slot.Sealed) (h : ts.foldlM (apply scanDouble) al = some al') :
    Applied scanDouble ts al al' ∧ al'.ids.Nodup ∧ ∀ slot ∈ al'.arg, slot.Sealed := by
  induction ts generalizing al with
  | nil =>
    cases h
    exact ⟨rfl, hi, hal⟩
  | cons t ts ih =>
    rw [foldlM_cons] at h
    obtain ⟨al1, ha, hr⟩ := bind_eq_some_iff.mp h
    obtain ⟨hu, hi1⟩ := apply_updates hi ha
    obtain ⟨hap, hs⟩ := ih hi1 (apply_sealed ha hal) hr
    exact ⟨⟨al1, hu, hap⟩, hs⟩

/-- A list without arguments in memory that holds ones. -/
def onesList : ArgumentList ℕ where
  nargs := 0
  arg := replicate MAX_ARGS ⟨.typeInt, 0, 0, replicate MAX_ARG_STRING 1, 0, length_replicate⟩
  arg_length := length_replicate
  nargs_le := Nat.zero_le _

end Glomop.Frontend
