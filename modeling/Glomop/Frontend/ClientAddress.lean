import Glomop.Frontend.MagicSafety
import Glomop.Frontend.ParseUpref

/-!
# The client's address

`http_go_proc` adds the address of the client behind the arguments from the database and from the
URL, and the distiller takes the first argument with its id, which may be one of them
(`client_address_iff`).
-/

namespace Glomop.Frontend

open Lib Rpc List ArgumentList UrlMagic

variable {D : Type}

def FRONT_CLIENT_IP : UInt32 := 10

/-- The arguments of a request without the address: the user's, and those in the URL.
`httpgo.c` `http_go_proc`. -/
def urlArguments (scanDouble : Bytes → Option D) (locals : Locals D) (prefs : ArgumentList D)
    (url : Bytes) : Option (ArgumentList D) :=
  if isMagic url then (fromMagic scanDouble locals prefs url).map fun r => r.2.1 else some prefs

/-- Add the address; `none` where the place is outside the array.
`httpgo.c` `http_go_proc`. -/
def addClientIp (k : UInt32) (prefs : ArgumentList D) : Option (ArgumentList D) :=
  if h : prefs.nargs < MAX_ARGS then
    some ((prefs.claim FRONT_CLIENT_IP h).modifyAt prefs.nargs (·.setInt k.toInt32))
  else none

/-- `distinterface.h` `ARG_INT`. -/
def Slot.int (slot : Slot D) : Int32 := if slot.type = .typeInt then slot.arg_int else 0

/-- The address that the distiller's queue is given.
`distiller.cc` `MyDistiller::WorkReceived`. -/
def queueAddress (al : ArgumentList D) : UInt32 :=
  ((al.lookup FRONT_CLIENT_IP).map (·.int.toUInt32)).getD 0

variable {k : UInt32} {prefs : ArgumentList D}

lemma queueAddress_of_room (h : prefs.nargs < MAX_ARGS) :
    ∃ al, addClientIp k prefs = some al ∧
      queueAddress al = ((prefs.lookup FRONT_CLIENT_IP).map (·.int.toUInt32)).getD k := by
  refine ⟨_, dif_pos h, ?_⟩
  obtain ⟨slot, hs, hu⟩ := prefs.used_claim FRONT_CLIENT_IP h
  rw [queueAddress, ArgumentList.lookup, used_modifyAt, hu]
  conv_lhs => rw [← prefs.used_length, modify_append_cons, find?_append]
  rw [ArgumentList.lookup]
  cases prefs.used.find? (·.id = FRONT_CLIENT_IP) with
  | none => simp [Slot.setInt, hs, Slot.int]
  | some slot => rfl

/-! ## The arguments in the URL -/

section Spelled

variable (scanDouble : Bytes → Option D)

/-- The arguments that some fields spell, each with the variables of the scanner behind it. -/
def spelled : List Bytes → Locals D → Option (List (ArgumentType × Locals D))
  | [], _ => some []
  | field :: fs, v =>
    match argumentType (field.headD 0) with
    | none => spelled fs v
    | some type =>
      (scanArgument scanDouble type (field.drop 1) v).bind fun v =>
        (spelled fs v).map ((type, v) :: ·)

def spelledIn (locals : Locals D) (url : Bytes) : Option (List (ArgumentType × Locals D)) :=
  if isMagic url then (fields url).bind (spelled scanDouble · locals) else some []

end Spelled

/-- The ids of a list and those that some arguments add to them. -/
def withIds : List UInt32 → List (ArgumentType × Locals D) → List UInt32
  | ids, [] => ids
  | ids, a :: args => withIds (if a.2.id ∈ ids then ids else ids ++ [a.2.id]) args

/-- The address that the last of some arguments with its id gives, or the one there was. -/
def addressIn : Option UInt32 → List (ArgumentType × Locals D) → Option UInt32
  | address, [] => address
  | address, (type, v) :: args =>
    addressIn (if v.id = FRONT_CLIENT_IP then some (if type = .typeInt then v.intval else 0)
      else address) args

/-- `Scanner.store`, of the list. -/
def storeArg (al : ArgumentList D) (a : ArgumentType × Locals D) : ArgumentList D :=
  if h : al.index a.2.id ≠ MAX_ARGS then al.enter a.2.id (a.2.assign a.1) h else al

def address (al : ArgumentList D) : Option UInt32 :=
  (al.lookup FRONT_CLIENT_IP).map (·.int.toUInt32)

variable {scanDouble : Bytes → Option D}

/-- One field: if the rest of the loop stores what `fs` spell, the loop stores what they spell behind
`pos`. -/
lemma map_round (pos : Bytes) (st : Scanner D) (fs : Option (List Bytes))
    (rest : Scanner D → Option (Bytes × Scanner D))
    (hrest : ∀ st, (rest st).map (·.2.al) =
      (fs.bind (spelled scanDouble · st.locals)).map (·.foldl storeArg st.al)) :
    ((st.round scanDouble pos).bind rest).map (·.2.al) =
      ((fs.map (pos :: ·)).bind (spelled scanDouble · st.locals)).map (·.foldl storeArg st.al) := by
  unfold Scanner.round
  cases hp : argumentType (pos.headD 0) with
  | none =>
    dsimp only [Option.bind_some]
    rw [hrest]
    cases fs with
    | none => rfl
    | some fs => simp only [Option.map_some, Option.bind_some, spelled, hp]
  | some type =>
    dsimp only
    cases hs : scanArgument scanDouble type (pos.drop 1) st.locals with
    | none => cases fs <;> simp only [Option.map_none, Option.map_some, Option.bind_none,
        Option.bind_some, spelled, hp, hs]
    | some v =>
      have hst : (st.store type v).al = storeArg st.al (type, v) ∧ (st.store type v).locals = v := by
        unfold Scanner.store storeArg
        split_ifs <;> exact ⟨rfl, rfl⟩
      rw [Option.map_some, Option.bind_some, hrest, hst.1, hst.2]
      cases fs with
      | none => rfl
      | some fs =>
        simp only [Option.map_some, Option.bind_some, spelled, hp, hs]
        cases spelled scanDouble fs v <;> rfl

lemma map_fromMagicLoop (formLength : ℕ) (pos : Bytes) (nexts : List Bytes) (st : Scanner D) :
    (fromMagicLoop scanDouble formLength pos nexts st).map (·.2.al) =
      ((fieldsFrom formLength pos nexts).bind (spelled scanDouble · st.locals)).map
        (·.foldl storeArg st.al) := by
  induction nexts generalizing pos st with
  | nil => rfl
  | cons next nexts ih =>
    have hf : fieldsFrom formLength pos (next :: nexts) =
        (if formLength < next.length then fieldsFrom formLength next nexts else some []).map
          (pos :: ·) := by
      rw [fieldsFrom]
      split_ifs <;> rfl
    rw [fromMagicLoop, hf]
    refine map_round pos st _ _ fun st => ?_
    split_ifs
    · exact ih next st
    · rfl

lemma length_le_withIds (ids : List UInt32) (args : List (ArgumentType × Locals D)) :
    ids.length ≤ (withIds ids args).length := by
  induction args generalizing ids with
  | nil => exact le_rfl
  | cons a args ih =>
    refine le_trans ?_ (ih _)
    split_ifs <;> simp

lemma storeArg_spec {al : ArgumentList D} {v : Locals D} (type : ArgumentType)
    (h : al.index v.id ≠ MAX_ARGS) :
    (storeArg al (type, v)).ids = (if v.id ∈ al.ids then al.ids else al.ids ++ [v.id]) ∧
      address (storeArg al (type, v)) = if v.id = FRONT_CLIENT_IP then
        some (if type = .typeInt then v.intval else 0) else address al := by
  have hst : storeArg al (type, v) = al.enter v.id (v.assign type) h := dif_pos h
  have hint (slot : Slot D) : (v.assign type slot).int.toUInt32 =
      if type = .typeInt then v.intval else 0 := by
    cases type <;> rfl
  rw [hst, address]
  by_cases hid : v.id ∈ al.ids
  · refine ⟨by rw [if_pos hid, ids_enter_of_mem (assign_id v type) hid], ?_⟩
    obtain ⟨slot, hs⟩ := Option.isSome_iff_exists.mp (lookup_isSome hid)
    rw [lookup_enter_of_mem (assign_id v type) hid]
    by_cases heq : v.id = FRONT_CLIENT_IP
    · rw [if_pos heq.symm, if_pos heq, ← heq, hs, Option.map_some, Option.map_some, hint]
    · rw [if_neg (Ne.symm heq), if_neg heq, address]
  · refine ⟨by rw [if_neg hid, ids_enter_of_not_mem (assign_id v type) hid], ?_⟩
    obtain ⟨slot, -, hu⟩ := enter_of_not_mem (v.assign type) hid h
    rw [address, ArgumentList.lookup, hu, find?_append, ← ArgumentList.lookup]
    by_cases heq : v.id = FRONT_CLIENT_IP
    · rw [if_pos heq, ← heq, lookup_eq_none hid]
      simp [assign_id, hint]
    · simp [assign_id, heq]

lemma foldl_storeArg (al : ArgumentList D) (args : List (ArgumentType × Locals D)) :
    ((args.foldl storeArg al).nargs < MAX_ARGS ↔ (withIds al.ids args).length < MAX_ARGS) ∧
      ((args.foldl storeArg al).nargs < MAX_ARGS →
        address (args.foldl storeArg al) = addressIn (address al) args) := by
  induction args generalizing al with
  | nil => exact ⟨by rw [withIds, ids_length]; rfl, fun _ => rfl⟩
  | cons a args ih =>
    obtain ⟨type, v⟩ := a
    rw [foldl_cons, withIds, addressIn]
    dsimp only
    by_cases hix : al.index v.id = MAX_ARGS
    · -- the list is full, and stays so
      have hid : v.id ∉ al.ids := fun hid => index_ne_of_mem hid hix
      have hl := (ids_length al).trans ((index_eq hid).symm.trans hix)
      have h1 := length_le_withIds al.ids args
      have h2 := length_le_withIds (al.ids ++ [v.id]) args
      rw [length_append] at h2
      have hf : ¬ (args.foldl storeArg al).nargs < MAX_ARGS := by
        rw [(ih al).1]
        omega
      rw [show storeArg al (type, v) = al from dif_neg (not_not.mpr hix), if_neg hid]
      exact ⟨iff_of_false hf (by omega), fun hlt => absurd hlt hf⟩
    · obtain ⟨hids, had⟩ := storeArg_spec type hix
      rw [← hids, ← had]
      exact ih _

/-- **When the address is the client's**, by the stored list and the fields of the URL: if these are
scanned, their ids leave a place in the list, and the last field with the id of the address, or the
stored argument if there is no such field, is that address or is missing. -/
theorem client_address_iff (scanDouble : Bytes → Option D) (locals : Locals D)
    (stored : ArgumentList D) (url : Bytes) (k : UInt32) :
    (∃ al, (urlArguments scanDouble locals stored url).bind (addClientIp k) = some al ∧
        al.nargs ≤ MAX_ARGS ∧ queueAddress al = k) ↔
      ∃ args, spelledIn scanDouble locals url = some args ∧
        (withIds stored.ids args).length < MAX_ARGS ∧
        (addressIn (address stored) args).getD k = k := by
  have hu : urlArguments scanDouble locals stored url =
      (spelledIn scanDouble locals url).map (·.foldl storeArg stored) := by
    unfold urlArguments spelledIn fromMagic fields
    split_ifs with hm
    · cases strrchr url MAGIC_START with
      | none => rfl
      | some start =>
        dsimp only [Option.bind_some]
        split_ifs
        · rw [← map_fromMagicLoop _ _ _ ⟨stored, locals, false⟩, Option.map_map]
          rfl
        · rfl
    · rfl
  rw [hu]
  constructor
  · rintro ⟨al, hal, -, ha⟩
    obtain ⟨prefs, hp, had⟩ := Option.bind_eq_some_iff.mp hal
    obtain ⟨args, hsp, rfl⟩ := Option.map_eq_some_iff.mp hp
    have hr : (args.foldl storeArg stored).nargs < MAX_ARGS := by
      by_contra hf
      rw [addClientIp, dif_neg hf] at had
      cases had
    obtain ⟨al', ha', hq⟩ := queueAddress_of_room (k := k) hr
    obtain rfl := Option.some.inj (had.symm.trans ha')
    obtain ⟨hi, had⟩ := foldl_storeArg stored args
    refine ⟨args, hsp, hi.mp hr, ?_⟩
    rw [← had hr]
    exact hq.symm.trans ha
  · rintro ⟨args, hsp, hlt, ha⟩
    obtain ⟨hi, had⟩ := foldl_storeArg stored args
    obtain ⟨al, hal, hq⟩ := queueAddress_of_room (k := k) (hi.mpr hlt)
    refine ⟨al, by rw [hsp, Option.map_some, Option.bind_some, hal], al.nargs_le, ?_⟩
    rw [← had (hi.mpr hlt)] at ha
    exact hq.trans ha

/-- **A forged address**: with the URL `a*^i10=7^`, the client 1 is taken for the client 7. -/
theorem forged_address :
    ((urlArguments (fun _ => none) sampleLocals emptyList
      [97, 42, 94, 105, 49, 48, 61, 55, 94]).bind (addClientIp 1)).map queueAddress = some 7 := by
  decide

end Glomop.Frontend
