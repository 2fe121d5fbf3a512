import Glomop.Lib.Spans
import Glomop.Share.RExec

/-!
# The table of hosts

`RExec::Initialize` allocates an element for each comma of the list and one more, and then fills the
table with a scanner of its own.  Where an item is empty or white space the two disagree.
-/

namespace Glomop.Share

open Lib Option

/-! ## What a list says -/

def hostPieces (text : Bytes) : List Bytes := text.splitOnP (· == comma)

/-- What stands between the commas, without the white space around it. -/
def hostItems (text : Bytes) : List Bytes := (hostPieces text).map (trim isSpace)

/-- The text behind the first `*` of an item. -/
def textBehindStar (item : Bytes) : Option Bytes :=
  match item.dropWhile (· ≠ star) with
  | [] => none
  | _ :: text => some text

/-- The host that an item describes: its name before the `*`, its priority behind it. -/
def hostOfItem (resolve : Bytes → Bytes) (item : Bytes) : Host where
  name := item.takeWhile (· ≠ star)
  ipAddress := resolve (item.takeWhile (· ≠ star))
  priority := ((textBehindStar item).bind scanInt).getD 0
  loadLevel := 0

def AllNamed (hosts : List Host) : Prop := ∀ host ∈ hosts, host.name ≠ []

/-- **The table is right**: one host for each item that is not empty, in order, and no host without
a name. -/
structure TableRight (resolve : Bytes → Bytes) (text : Bytes) (hosts : List Host) : Prop where
  entries : hosts = ((hostItems text).filter (· ≠ [])).map (hostOfItem resolve)
  named : AllNamed hosts

structure ProperItem (item : Bytes) : Prop where
  nonempty : item ≠ []
  named : item.head? ≠ some star
  priority_eq : ((Host.priorityText item).bind scanInt).getD 0 =
    ((textBehindStar item).bind scanInt).getD 0

/-! ## The pieces of a list -/

section Pieces

variable {piece rest : Bytes}

lemma hostPieces_last (hp : comma ∉ piece) : hostPieces piece = [piece] :=
  splitOnP_beq_of_not_mem hp

lemma hostPieces_more (hp : comma ∉ piece) :
    hostPieces (piece ++ comma :: rest) = piece :: hostPieces rest :=
  splitOnP_beq_append_cons hp rest

lemma length_hostPieces (text : Bytes) : (hostPieces text).length = text.count comma + 1 := by
  induction text using splitOn_induction comma with
  | hl piece hp => simp [hostPieces_last hp, List.count_eq_zero.mpr hp]
  | hm piece rest hp ih =>
    simp [hostPieces_more hp, ih, List.count_append, List.count_eq_zero.mpr hp]

end Pieces

/-! ## The scanner -/

section Scanner

variable {piece tail : Bytes}

/-- What `RExec::Initialize` copies as the text of an entry. -/
abbrev inEntry : UInt8 → Bool := fun c => c ≠ comma && !isSpace c

lemma stops_inEntry_of_isSpace {b : Bytes} (hb : ∀ c ∈ b.head?, isSpace c = true) :
    Stops inEntry b := by
  intro c hc
  simp [hb c hc]

lemma nextEntry_word {a w after : Bytes} (ha : ∀ c ∈ a, isSpace c = true)
    (hw : ∀ c ∈ w, inEntry c = true) (haf : Stops inEntry after)
    (hs : Stops isSpace (w ++ after)) (hne : w ++ after ≠ []) :
    nextEntry (a ++ (w ++ after)) =
      if w.length > MAX_HOSTNAME - 1 then .malformed
      else match after.dropWhile isSpace with
        | [] => .entry w []
        | c :: rest => if c = comma then .entry w rest else .malformed := by
  have hst := dropWhile_append_stop ha hs
  have ht := takeWhile_append_stop hw haf
  have hd := dropWhile_append_stop hw haf
  cases hr : after.dropWhile isSpace <;> simp only [nextEntry, hst, if_neg hne, ht, hd, hr]

/-- **One round**: an item that is not empty is the next entry, or the list is malformed. -/
theorem nextEntry_piece (hp : comma ∉ piece) (him : trim isSpace piece ≠ [])
    (hta : tail = [] ∨ ∃ rest, tail = comma :: rest) :
    nextEntry (piece ++ tail) = .malformed ∨
      nextEntry (piece ++ tail) = .entry (trim isSpace piece) (tail.drop 1) := by
  obtain ⟨a, b, hsp, ha, hb, ht⟩ := exists_trim isSpace piece
  generalize trim isSpace piece = item at *
  obtain ⟨w, more, rfl, hw, hm⟩ := exists_span (fun c => !isSpace c) item
  subst hsp
  have hco : ∀ c ∈ w ++ more, c ≠ comma := by
    rintro c hc rfl
    exact hp (List.mem_append_right a (List.mem_append_left b hc))
  have hst : Stops inEntry tail ∧ Stops isSpace tail := by
    rcases hta with rfl | ⟨rest, rfl⟩
    · exact ⟨stops_nil, stops_nil⟩
    · exact ⟨stops_cons.mpr (by decide), stops_cons.mpr (by decide)⟩
  have hi : ∀ c ∈ w, inEntry c = true := by
    intro c hc
    have hne := hco c (List.mem_append_left more hc)
    simpa [hne] using hw c hc
  have haf : Stops inEntry (more ++ (b ++ tail)) := by
    refine (stops_inEntry_of_isSpace fun c hc => ?_).append
      ((stops_inEntry_of_isSpace fun c hc => hb c (List.mem_of_mem_head? hc)).append hst.1)
    simpa using hm c hc
  have hso : Stops isSpace (w ++ (more ++ (b ++ tail))) := by
    obtain ⟨c, core, hcn⟩ := List.exists_cons_of_ne_nil him
    rw [hcn] at ht
    rw [← List.append_assoc, hcn]
    exact stops_cons.mpr (stops_cons.mp ht.1)
  have hne : w ++ (more ++ (b ++ tail)) ≠ [] := by
    rw [← List.append_assoc]
    exact List.append_ne_nil_of_left_ne_nil him _
  rw [List.append_assoc, List.append_assoc, List.append_assoc, nextEntry_word ha hi haf hso hne]
  by_cases hlo : w.length > MAX_HOSTNAME - 1
  · exact .inl (if_pos hlo)
  rw [if_neg hlo]
  by_cases hn : more = []
  · -- the item is one word: white space and the end of the item follow
    subst hn
    rw [List.nil_append, dropWhile_append_stop hb hst.2, List.append_nil]
    rcases hta with rfl | ⟨rest, rfl⟩
    · exact .inr rfl
    · exact .inr (if_pos rfl)
  · -- another word follows
    obtain ⟨spaces, words, rfl, hs, hwo⟩ := exists_span isSpace more
    have hwn : words ≠ [] := by
      rintro rfl
      rw [List.append_nil] at hn ht
      obtain ⟨front, c, rfl⟩ := (List.eq_nil_or_concat' spaces).resolve_left hn
      have hl := ht.2
      rw [← List.append_assoc, List.reverse_append] at hl
      exact absurd (stops_cons.mp hl) (by simp [hs c])
    obtain ⟨c, words, rfl⟩ := List.exists_cons_of_ne_nil hwn
    rw [List.append_assoc, List.cons_append,
      dropWhile_append_stop hs (stops_cons.mpr (stops_cons.mp hwo))]
    exact .inl (if_neg (hco c (by simp)))

variable (resolve : Bytes → Bytes)

/-- **The scanner finds every item** of a list that it accepts, if none is empty. -/
theorem parseHosts_items (text : Bytes) (hi : ∀ item ∈ hostItems text, item ≠ [])
    (hok : (parseHosts resolve (text.count comma + 1) text).1 = true) :
    (parseHosts resolve (text.count comma + 1) text).2 =
      (hostItems text).map (.ofEntry resolve) := by
  induction text using splitOn_induction comma with
  | hl piece hp =>
    rw [hostItems, hostPieces_last hp] at hi ⊢
    have hn := nextEntry_piece hp (hi _ (.head _)) (.inl rfl)
    rw [List.append_nil] at hn
    rcases hn with hn | hn
    · rw [List.count_eq_zero.mpr hp, parseHosts, hn] at hok
      exact absurd hok Bool.false_ne_true
    · rw [List.count_eq_zero.mpr hp, parseHosts, hn]
      rfl
  | hm piece rest hp ih =>
    rw [hostItems, hostPieces_more hp] at hi ⊢
    rw [List.map_cons] at hi ⊢
    have hc : (piece ++ comma :: rest).count comma = rest.count comma + 1 := by
      simp [List.count_append, List.count_eq_zero.mpr hp]
    have hn := nextEntry_piece hp (hi _ (.head _)) (.inr ⟨rest, rfl⟩)
    rw [hc, parseHosts] at hok ⊢
    rcases hn with hn | hn
    · rw [hn] at hok
      exact absurd hok Bool.false_ne_true
    · rw [hn] at hok ⊢
      exact congrArg (Host.ofEntry resolve (trim isSpace piece) :: ·)
        (ih (fun item him => hi item (.tail _ him)) hok)

lemma length_parseHosts_le (slots : ℕ) (text : Bytes) :
    (parseHosts resolve slots text).2.length ≤ slots := by
  induction slots generalizing text with
  | zero => exact le_rfl
  | succ slots ih =>
    rw [parseHosts]
    cases nextEntry text with
    | finished | malformed => exact Nat.zero_le _
    | entry entry rest => exact Nat.succ_le_succ (ih rest)

variable (garbage : ℕ → Int32)

lemma length_initializeHosts (text : Bytes) :
    (initializeHosts resolve garbage text).2.length = (hostItems text).length := by
  have hle := length_parseHosts_le resolve (text.count comma + 1) text
  simp only [initializeHosts, hostItems, List.length_append, List.length_map, List.length_range,
    length_hostPieces]
  omega

lemma initializeHosts_items {text : Bytes} (hi : ∀ item ∈ hostItems text, item ≠ [])
    (hok : (initializeHosts resolve garbage text).1 = true) :
    (initializeHosts resolve garbage text).2 = (hostItems text).map (.ofEntry resolve) := by
  have hp := parseHosts_items resolve text hi hok
  have hl : (hostItems text).length = text.count comma + 1 := by
    rw [hostItems, List.length_map, length_hostPieces]
  simp [initializeHosts, hp, hl]

end Scanner

/-! ## The table -/

section Table

variable {resolve : Bytes → Bytes} {garbage : ℕ → Int32} {text : Bytes}

lemma hostOfItem_name_ne_nil {item : Bytes} (hi : item ≠ []) :
    (hostOfItem resolve item).name ≠ [] ↔ item.head? ≠ some star := by
  obtain ⟨c, item, rfl⟩ := List.exists_cons_of_ne_nil hi
  by_cases hc : c = star <;> simp [hostOfItem, hc]

/-- **The table is right exactly if every item is proper.** -/
theorem tableRight_iff (hok : (initializeHosts resolve garbage text).1 = true) :
    TableRight resolve text (initializeHosts resolve garbage text).2 ↔
      ∀ item ∈ hostItems text, ProperItem item := by
  constructor
  · rintro ⟨he, hn⟩
    -- the table has an element for every piece of the list, so no item is empty
    have ha : ∀ item ∈ hostItems text, item ≠ [] := by
      have hl := congrArg List.length he
      rw [length_initializeHosts, List.length_map] at hl
      have hf := List.length_filter_eq_length_iff.mp hl.symm
      simpa using hf
    have hf : (hostItems text).filter (· ≠ []) = hostItems text := by
      simpa [List.filter_eq_self] using ha
    rw [hf] at he
    rw [he] at hn
    intro item hi
    refine ⟨ha item hi, ?_, ?_⟩
    · exact (hostOfItem_name_ne_nil (ha item hi)).mp (hn _ (List.mem_map_of_mem hi))
    · have hm := (initializeHosts_items resolve garbage ha hok).symm.trans he
      exact congrArg Host.priority (List.map_inj_left.mp hm item hi)
  · intro hp
    have hf : (hostItems text).filter (· ≠ []) = hostItems text := by
      simpa [List.filter_eq_self] using fun item hi => (hp item hi).nonempty
    have he : (initializeHosts resolve garbage text).2 =
        (hostItems text).map (hostOfItem resolve) := by
      rw [initializeHosts_items resolve garbage (fun item hi => (hp item hi).nonempty) hok]
      refine List.map_congr_left fun item hi => ?_
      simp only [Host.ofEntry, hostOfItem, (hp item hi).priority_eq]
    refine ⟨by rw [hf, he], ?_⟩
    rw [he]
    intro host hh
    obtain ⟨item, hi, rfl⟩ := List.mem_map.mp hh
    exact (hostOfItem_name_ne_nil (hp item hi).nonempty).mpr (hp item hi).named

end Table

/-! ## Selecting a host -/

section Selecting

open RExec

variable {s s' : RExec} {rounds : ℕ}

def KeepsList : RExec → RExec.Op → Prop
  | _, .initializeRExec .. => False
  | _, .update .. => False
  | _, _ => True

lemma mem_hosts_of_findLeastLoadedHost {result : Option ℕ}
    (h : s.findLeastLoadedHost rounds = some (result, s')) :
    (∀ idx ∈ result, ∃ host, s.hosts[idx]? = some host) ∧ s'.hosts = s.hosts := by
  unfold findLeastLoadedHost at h
  split_ifs at h with hn
  · cases h
    exact ⟨nofun, rfl⟩
  · obtain ⟨best, hs, he⟩ := map_eq_some_iff.mp h
    have hb : ∀ idx ∈ best.returnIdx, ∃ host, s.hosts[idx]? = some host := by
      refine ringScan_preserves
        (I := fun best => ∀ idx ∈ best.returnIdx, ∃ host, s.hosts[idx]? = some host)
        (fun best idx best' hb hf => ?_) nofun hs
      obtain ⟨host, hh, rfl⟩ := map_eq_some_iff.mp hf
      split_ifs
      · rintro idx' ⟨⟩
        exact ⟨host, hh⟩
      · exact hb
    split at he
    · next idx hi =>
        cases he
        exact ⟨fun idx' hi' => hb idx' (hi ▸ hi'), rfl⟩
    · cases he
      exact ⟨nofun, rfl⟩

/-- **One call keeps the hosts named** if it keeps the list. -/
theorem allNamed_step {op : RExec.Op} (hk : KeepsList s op) (hs : s.step op s')
    (h : AllNamed s.hosts) : AllNamed s'.hosts := by
  have hl : ∀ ipAddress change, AllNamed (s.changeLevel ipAddress change).hosts := by
    intro ipAddress change host hh
    unfold changeLevel at hh
    split at hh
    · exact h host hh
    · rw [recomputeMinLoadLevel_hosts] at hh
      obtain ⟨old, hold, hn, -⟩ := mem_modify_loadLevel hh
      exact hn ▸ h old hold
  cases op with
  | initializeRExec | update => exact hk.elim
  | upLevel ipAddress | downLevel ipAddress =>
    cases hs
    exact hl ipAddress _
  | exec rounds forked =>
    simp only [RExec.step, next, exec, map_map, map_eq_some_iff] at hs
    obtain ⟨⟨result, s1⟩, hf, rfl⟩ := hs
    exact (mem_hosts_of_findLeastLoadedHost hf).2 ▸ h

/-- **Only named hosts are selected**, as long as the list is not replaced. -/
def SelectsNamed (s : RExec) : Prop :=
  ∀ ops s', Run (Guarded KeepsList RExec.step) s ops s' →
    ∀ rounds idx s'', s'.findLeastLoadedHost rounds = some (some idx, s'') →
      ∃ host, s'.hosts[idx]? = some host ∧ host.name ≠ []

lemma selectsNamed_of_allNamed (h : AllNamed s.hosts) : SelectsNamed s := by
  intro ops s' hrun rounds idx s'' hf
  have hn : AllNamed s'.hosts :=
    hrun.invariant (I := fun s => AllNamed s.hosts)
      (fun _ _ _ hs hst => allNamed_step hst.1 hst.2 hs) h
  obtain ⟨host, hh⟩ := (mem_hosts_of_findLeastLoadedHost hf).1 idx rfl
  exact ⟨host, hh, hn host (List.mem_of_getElem? hh)⟩

end Selecting

/-! ## The list that is accepted -/

/-- **The host list.**  The table of a list that is accepted has the hosts the list describes, one
for each item that is not empty, and a name for each, exactly if every item of the list is proper;
and then, whatever is called as long as the list is kept, only hosts with a name are selected. -/
theorem hostTable_right_iff (s : RExec) (rsh rshArgs text : Bytes) (resolve : Bytes → Bytes)
    (garbage : ℕ → Int32) (hok : (s.initializeRExec rsh rshArgs text resolve garbage).1 = true) :
    (TableRight resolve text (s.initializeRExec rsh rshArgs text resolve garbage).2.hosts ↔
      ∀ item ∈ hostItems text, ProperItem item) ∧
    ((∀ item ∈ hostItems text, ProperItem item) →
      SelectsNamed (s.initializeRExec rsh rshArgs text resolve garbage).2) := by
  have hi : TableRight resolve text
      (s.initializeRExec rsh rshArgs text resolve garbage).2.hosts ↔
        ∀ item ∈ hostItems text, ProperItem item := tableRight_iff hok
  exact ⟨hi, fun hp => selectsNamed_of_allNamed (hi.mpr hp).named⟩

/-- The list `oak*1, elm`. -/
theorem hostTable_right_oak_elm :
    (RExec.new.initializeRExec [] [] [111, 97, 107, 42, 49, 44, 32, 101, 108, 109] id
        fun _ => 7).1 = true ∧
      (∀ item ∈ hostItems [111, 97, 107, 42, 49, 44, 32, 101, 108, 109], ProperItem item) ∧
      TableRight id [111, 97, 107, 42, 49, 44, 32, 101, 108, 109]
        (RExec.new.initializeRExec [] [] [111, 97, 107, 42, 49, 44, 32, 101, 108, 109] id
          fun _ => 7).2.hosts := by
  have him : hostItems [111, 97, 107, 42, 49, 44, 32, 101, 108, 109] =
      [[111, 97, 107, 42, 49], [101, 108, 109]] := by decide +kernel
  have hp : ∀ item ∈ hostItems [111, 97, 107, 42, 49, 44, 32, 101, 108, 109], ProperItem item := by
    rw [him]
    intro item hi
    rcases List.mem_cons.mp hi with rfl | hi
    · exact ⟨by decide, by decide, by decide +kernel⟩
    · obtain rfl := List.mem_singleton.mp hi
      exact ⟨by decide, by decide, by decide +kernel⟩
  have hok : (RExec.new.initializeRExec [] [] [111, 97, 107, 42, 49, 44, 32, 101, 108, 109] id
      fun _ => 7).1 = true := by decide +kernel
  exact ⟨hok, hp, (hostTable_right_iff _ _ _ _ _ _ hok).1.mpr hp⟩

/-- Lists that are accepted and tables that are not right: two hosts for `a,` and three for `a, ,b`,
of which one has no name, a host without a name for the empty list and for `*5`, and the priority 2
for `a*1*2`.  With a process on `a`, the host without a name behind `a,` is selected. -/
theorem hostTable_nameless : (let table := initializeHosts id fun _ => 7
    (table [97, 44]).1 = true ∧ (table [97, 44]).2.map Host.name = [[97], []] ∧
    (table [97, 44, 32, 44, 98]).1 = true ∧
      (table [97, 44, 32, 44, 98]).2.map Host.name = [[97], [], [98]] ∧
    (table []).1 = true ∧ (table []).2.map Host.name = [[]] ∧
    (table [42, 53]).1 = true ∧ (table [42, 53]).2.map Host.name = [[]] ∧
    (table [97, 42, 49, 42, 50]).1 = true ∧
      (table [97, 42, 49, 42, 50]).2.map Host.priority = [2]) ∧
    ¬ SelectsNamed (RExec.new.initializeRExec [] [] [97, 44] id fun _ => 7).2 := by
  refine ⟨by decide +kernel, fun hs => ?_⟩
  have hrun : Run (Guarded KeepsList RExec.step)
      (RExec.new.initializeRExec [] [] [97, 44] id fun _ => 7).2 [.upLevel [97]]
      ((RExec.new.initializeRExec [] [] [97, 44] id fun _ => 7).2.upLevel [97]) :=
    .cons ⟨trivial, rfl⟩ (.nil _)
  obtain ⟨host, hh, hn⟩ := hs _ _ hrun 2 1 _ rfl
  exact hn (some.inj hh ▸ rfl)

end Glomop.Share
