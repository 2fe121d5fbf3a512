import Glomop.Database.Index
import Glomop.Lib.CharSum
import Glomop.Lib.Spans

/-!
# The options file

An options file has lines `key: value`.  A key may stand on several lines: its values are joined,
with a space between them, in a buffer that is one byte too short.  At the end the name of the file
is entered under the key `global.optfile`.  Allocations succeed.  Source: `options.cc`.
-/

namespace Glomop.Share

open Lib Function List Option

abbrev MAXLINE : ℕ := 256

/-- `global.optfile`.
`defines.h`. -/
def Opt_OptionsFile : Bytes := [103, 108, 111, 98, 97, 108, 46, 111, 112, 116, 102, 105, 108, 101]

/-- The character `:`. -/
abbrev colon : UInt8 := 58

/-- The character `!`, at the start of a comment. -/
abbrev bang : UInt8 := 33

abbrev newline : UInt8 := 10

/-! ## Reading a file -/

/-- `fgets` with a buffer of `n` bytes: what is read, up to and with the end of the line, and what
is left. -/
def fgets (n : ℕ) (stream : Bytes) : Bytes × Bytes :=
  let line := (stream.takeWhile (· ≠ newline) ++ [newline]).take (min (n - 1) stream.length)
  (line, stream.drop line.length)

/-- What successive calls of `fgets` read, at most `fuel` of them. -/
def readLines : ℕ → Bytes → List Bytes
  | 0, _ => []
  | fuel + 1, stream =>
    if stream = [] then []
    else
      let (line, stream) := fgets MAXLINE stream
      line :: readLines fuel stream

abbrev inKey : UInt8 → Bool := fun c => !isSpace c && c ≠ colon

/-- The key and the value of a line, if it has them.  `BasicOptionDatabase::Create`. -/
def parseOption (line : Bytes) : Option (Bytes × Bytes) :=
  let ptr := (cString line).dropWhile isSpace
  if ptr.head? = some bang then none
  else
    let key := ptr.takeWhile inKey
    let ptr := ptr.dropWhile inKey
    if key = [] ∨ ptr = [] then none
    else
      match ptr.dropWhile isSpace with
      | [] => none
      | c :: ptr => if c = colon then some (key, trim isSpace ptr) else none

/-- A pointer to an option.  `struct Option`. -/
structure OptionRecord where
  address : ℕ
  key : Bytes
deriving DecidableEq

def optionKey : IndexKey Bytes where
  equal a b := decide (a = b)
  hash := charSum
  equivalence := by simpa using eq_equivalence
  hash_eq a b h := by rw [of_decide_eq_true h]

structure Join where
  key : Bytes
  allocated : ℕ
  written : ℕ

structure OptionDatabase where
  database : Database OptionRecord Bytes
  /-- The `value` of the option at an address. -/
  value : ℕ → Bytes
  nextAddress : ℕ
  joins : List Join

namespace OptionDatabase

/-- `OptionDatabase::OptionDatabase`. -/
def new : OptionDatabase where
  database := ⟨[.new optionKey OptionRecord.key false 13 Index.defaultSize_pos
    Index.defaultSize_lt], [], []⟩
  value := fun _ => []
  nextAddress := 0
  joins := []

/-- `index->FindOne`; the index is the only one of the database. -/
def findOne (s : OptionDatabase) (key : Bytes) : Option (Option OptionRecord) := do
  let index ← s.database.indices.head?
  index.findOne key

/-- The value is put down as it was written, whether it fits or not. -/
def createRecord (s : OptionDatabase) (key value : Bytes) :
    Option (Option OptionRecord × OptionDatabase) := do
  if MAXLINE ≤ key.length then return (none, s)
  else
    match ← s.findOne key with
    | some option =>
      let old := s.value option.address
      let database ← s.database.remove option
      return (some option, { s with
        database := database
        value := Function.update s.value option.address (old ++ 32 :: value)
        joins := s.joins ++
          [⟨key, old.length + value.length + 1, (old ++ 32 :: value).length + 1⟩] })
    | none =>
      return (some ⟨s.nextAddress, key⟩, { s with
        value := Function.update s.value s.nextAddress value
        nextAddress := s.nextAddress + 1 })

/-- `OptionDatabase::Add(const char*, const char*)`. -/
def add (s : OptionDatabase) (key value : Bytes) : Option (Bool × OptionDatabase) := do
  match ← s.createRecord key value with
  | (none, s) => return (false, s)
  | (some record, s) =>
    let (added, database) ← s.database.add record
    return (added, { s with database := database })

/-- The loop of `BasicOptionDatabase::Create`. -/
def createLoop (s : OptionDatabase) : List Bytes → Option (Bool × OptionDatabase)
  | [] => some (true, s)
  | line :: lines =>
    match parseOption line with
    | none => s.createLoop lines
    | some (key, value) => do
      let (added, s) ← s.add key value
      if added then s.createLoop lines else return (false, s)

/-- Read a file into the database, or `none` where it cannot be opened. -/
def create (s : OptionDatabase) (filename : Bytes) (file : Option Bytes) :
    Option (Bool × OptionDatabase) := do
  match file with
  | none => return (false, s)
  | some stream =>
    let (read, s) ← s.createLoop (readLines stream.length stream)
    if read then s.add Opt_OptionsFile filename else return (false, s)

/-- The key is copied into a buffer. -/
def find (s : OptionDatabase) (key : Bytes) : Option (Option Bytes) := do
  if MAXLINE ≤ key.length then none
  else
    let option ← s.findOne key
    return option.map fun r => s.value r.address

end OptionDatabase

/-! ## What a file says -/

def fileLines (file : Bytes) : List Bytes := file.splitOnP (· == newline)

/-- **A line is of the form `key: value`**, with white space anywhere but in the key, and no
comment. -/
def IsOption (line key value : Bytes) : Prop :=
  ∃ a b rest, cString line = a ++ (key ++ (b ++ colon :: rest)) ∧
    (∀ c ∈ a, isSpace c = true) ∧ key ≠ [] ∧ (∀ c ∈ key, inKey c = true) ∧
    key.head? ≠ some bang ∧ (∀ c ∈ b, isSpace c = true) ∧ value = trim isSpace rest

/-- The values that some lines have for a key, in order. -/
inductive Values (key : Bytes) : List Bytes → List Bytes → Prop
  | nil : Values key [] []
  | other {line lines values} :
      (∀ value, ¬ IsOption line key value) → Values key lines values →
      Values key (line :: lines) values
  | option {line lines value values} :
      IsOption line key value → Values key lines values →
      Values key (line :: lines) (value :: values)

def joined (values : List Bytes) : Bytes := [32].intercalate values

/-- **An option is right**: it is found with its joined values, or not at all if it has none; and
every value that was joined for it is inside its buffer. -/
structure OptionRight (s : OptionDatabase) (key : Bytes) (values : List Bytes) : Prop where
  found : s.find key = some (if values = [] then none else some (joined values))
  fits : ∀ join ∈ s.joins, join.key = key → join.written ≤ join.allocated

/-! ## Lines -/

section Lines

variable {line key value : Bytes}

lemma parseOption_of_isOption (h : IsOption line key value) :
    parseOption line = some (key, value) := by
  obtain ⟨a, b, rest, ht, ha, hne, hkey, hba, hb, rfl⟩ := h
  have hbe : Stops inKey (b ++ colon :: rest) := by
    cases b with
    | nil => exact stops_cons.mpr (by decide)
    | cons c b => exact stops_cons.mpr (by simp [hb c])
  have hco : Stops isSpace (colon :: rest) := stops_cons.mpr (by decide)
  have hs : Stops isSpace (key ++ (b ++ colon :: rest)) := by
    obtain ⟨c, cs, rfl⟩ := exists_cons_of_ne_nil hne
    have hc := hkey c (.head _)
    simp only [Bool.and_eq_true, Bool.not_eq_true'] at hc
    exact stops_cons.mpr hc.1
  have hh : (key ++ (b ++ colon :: rest)).head? ≠ some bang := by
    rwa [head?_append_of_ne_nil _ hne]
  have hn : ¬ (key = [] ∨ b ++ colon :: rest = []) := by simp [hne]
  simp only [parseOption, ht, dropWhile_append_stop ha hs, if_neg hh,
    takeWhile_append_stop hkey hbe, dropWhile_append_stop hkey hbe, if_neg hn,
    dropWhile_append_stop hb hco, if_true]

lemma isOption_of_parseOption (h : parseOption line = some (key, value)) :
    IsOption line key value := by
  obtain ⟨a, ptr, ht, ha, hp⟩ := exists_span isSpace (cString line)
  obtain ⟨word, behind, rfl, hw, hbe⟩ := exists_span inKey ptr
  obtain ⟨b, tail, rfl, hb, hta⟩ := exists_span isSpace behind
  simp only [parseOption, ht, dropWhile_append_stop ha hp, takeWhile_append_stop hw hbe,
    dropWhile_append_stop hw hbe, dropWhile_append_stop hb hta] at h
  split_ifs at h with hba he
  rw [not_or] at he
  cases tail with
  | nil => cases h
  | cons c rest =>
    dsimp only at h
    split_ifs at h with hc
    cases h
    subst hc
    refine ⟨a, b, rest, ht, ha, he.1, hw, ?_, hb, rfl⟩
    rwa [head?_append_of_ne_nil _ he.1] at hba

/-- **The scanner accepts exactly the lines of that form.** -/
theorem parseOption_eq_some_iff : parseOption line = some (key, value) ↔ IsOption line key value :=
  ⟨isOption_of_parseOption, parseOption_of_isOption⟩

lemma isOption_newline : IsOption (line ++ [newline]) key value ↔ IsOption line key value := by
  by_cases hnu : ∀ c ∈ line, c ≠ 0
  · have hli : cString line = line := takeWhile_eq_self_iff.mpr (by simpa using hnu)
    have hlo : cString (line ++ [newline]) = line ++ [newline] := by
      have hn : newline ≠ 0 := by decide
      refine takeWhile_eq_self_iff.mpr ?_
      simpa [or_imp, forall_and, hn] using hnu
    unfold IsOption
    rw [hli, hlo]
    constructor
    · rintro ⟨a, b, rest, ht, ha, hne, hkey, hba, hb, rfl⟩
      -- what follows the colon ends with the line
      rcases eq_nil_or_concat' rest with rfl | ⟨rest, c, rfl⟩
      · have hl : line ++ [newline] = (a ++ (key ++ b)) ++ [colon] := by
          simpa [append_assoc] using ht
        exact absurd (cons.inj (append_inj' hl rfl).2).1 (by decide)
      · have hl : line ++ [newline] = (a ++ (key ++ (b ++ colon :: rest))) ++ [c] := by
          simpa [append_assoc] using ht
        obtain ⟨hli, hc⟩ := append_inj' hl rfl
        obtain rfl := (cons.inj hc).1
        exact ⟨a, b, rest, hli, ha, hne, hkey, hba, hb, trim_append_right rest (by simp; decide)⟩
    · rintro ⟨a, b, rest, ht, ha, hne, hkey, hba, hb, rfl⟩
      refine ⟨a, b, rest ++ [newline], ?_, ha, hne, hkey, hba, hb,
        (trim_append_right rest (by simp; decide)).symm⟩
      rw [ht]
      simp [append_assoc]
  · -- what follows a NUL is not looked at
    have hs : cString (line ++ [newline]) = cString line := by
      obtain ⟨text, tail, rfl, ht, hta⟩ := exists_span (· ≠ 0) line
      cases tail with
      | nil => exact absurd (by simpa using ht) hnu
      | cons c tail =>
        have hc := stops_cons.mp hta
        have ht' : Stops (fun c => decide (c ≠ 0)) (c :: (tail ++ [newline])) := stops_cons.mpr hc
        rw [cString, cString, append_assoc, cons_append,
          takeWhile_append_stop ht ht', takeWhile_append_stop ht hta]
    unfold IsOption
    rw [hs]

lemma parseOption_newline (line : Bytes) : parseOption (line ++ [newline]) = parseOption line := by
  refine ext fun ⟨key, value⟩ => ?_
  rw [parseOption_eq_some_iff, parseOption_eq_some_iff, isOption_newline]

lemma fgets_last {piece : Bytes} {n : ℕ} (hp : newline ∉ piece)
    (hs : piece.length < n - 1) : fgets n piece = (piece, []) := by
  have ht : piece.takeWhile (· ≠ newline) = piece :=
    takeWhile_eq_self_iff.mpr fun c hc => by simpa using fun h : c = newline => hp (h ▸ hc)
  simp only [fgets, ht, min_eq_right hs.le]
  simp

lemma fgets_line {piece : Bytes} {n : ℕ} (hp : newline ∉ piece)
    (hs : piece.length < n - 1) (rest : Bytes) :
    fgets n (piece ++ newline :: rest) = (piece ++ [newline], rest) := by
  have ht : (piece ++ newline :: rest).takeWhile (· ≠ newline) = piece := by
    refine takeWhile_append_stop (fun c hc => ?_) (stops_cons.mpr (by decide))
    simpa using fun h : c = newline => hp (h ▸ hc)
  have hw : (piece ++ [newline]).take (min (n - 1) (piece ++ newline :: rest).length) =
      piece ++ [newline] := by
    refine take_of_length_le ?_
    simp
    omega
  simp only [fgets, ht, hw]
  simp

/-- **What is read of a file without overlong lines** has the options of its lines. -/
theorem filterMap_readLines {file : Bytes} {fuel : ℕ} (hf : file.length ≤ fuel)
    (hs : ∀ line ∈ fileLines file, line.length < MAXLINE - 1) :
    (readLines fuel file).filterMap parseOption = (fileLines file).filterMap parseOption := by
  induction file using splitOn_induction newline generalizing fuel with
  | hl piece hp =>
    rw [fileLines, splitOnP_beq_of_not_mem hp] at hs ⊢
    cases fuel with
    | zero =>
      obtain rfl := length_eq_zero_iff.mp (Nat.le_zero.mp hf)
      rfl
    | succ fuel =>
      by_cases hn : piece = []
      · subst hn
        rfl
      · have hre : readLines fuel [] = [] := by cases fuel <;> rfl
        simp only [readLines, if_neg hn, fgets_last hp (hs piece (by simp)), hre]
  | hm piece rest hp ih =>
    rw [fileLines, splitOnP_beq_append_cons hp] at hs ⊢
    obtain ⟨hps, hr⟩ := forall_mem_cons.mp hs
    rw [length_append, length_cons] at hf
    obtain ⟨fuel, rfl⟩ : ∃ fuel', fuel = fuel' + 1 := ⟨fuel - 1, by omega⟩
    have hne : piece ++ newline :: rest ≠ [] := by simp
    simp only [readLines, if_neg hne, fgets_line hp hps, filterMap_cons,
      parseOption_newline, ih (show rest.length ≤ fuel by omega) hr]
    rfl

/-! The values of a key. -/

def valuesOf (key : Bytes) (entries : List (Bytes × Bytes)) : List Bytes :=
  (entries.filter (·.1 = key)).map (·.2)

lemma values_filterMap (key : Bytes) (lines : List Bytes) :
    Values key lines (valuesOf key (lines.filterMap parseOption)) := by
  induction lines with
  | nil => exact .nil
  | cons line lines ih =>
    cases hp : parseOption line with
    | none =>
      rw [filterMap_cons_none hp]
      refine .other (fun value ho => ?_) ih
      cases hp.symm.trans (parseOption_eq_some_iff.mpr ho)
    | some entry =>
      obtain ⟨key', value⟩ := entry
      rw [filterMap_cons_some hp]
      by_cases hkey : key' = key
      · subst hkey
        rw [valuesOf, filter_cons_of_pos (by simp), map_cons]
        exact .option (parseOption_eq_some_iff.mp hp) ih
      · rw [valuesOf, filter_cons_of_neg (by simpa using hkey)]
        refine .other (fun value' ho => hkey ?_) ih
        have hs := hp.symm.trans (parseOption_eq_some_iff.mpr ho)
        exact (Prod.mk.inj (some.inj hs)).1

lemma Values.eq_valuesOf {lines values : List Bytes} (h : Values key lines values) :
    values = valuesOf key (lines.filterMap parseOption) := by
  induction h with
  | nil => rfl
  | @other line lines values hn _ ih =>
    cases hp : parseOption line with
    | none => rwa [filterMap_cons_none hp]
    | some entry =>
      obtain ⟨key', value⟩ := entry
      have hkey : key' ≠ key := by
        rintro rfl
        exact hn value (parseOption_eq_some_iff.mp hp)
      rwa [filterMap_cons_some hp, valuesOf, filter_cons_of_neg (by simpa using hkey)]
  | option ho _ ih =>
    rw [filterMap_cons_some (parseOption_eq_some_iff.mpr ho), valuesOf,
      filter_cons_of_pos (by simp), map_cons, ih]
    rfl

end Lines

/-! ## The index -/

structure Indexed (db : Database OptionRecord Bytes) (index : Index OptionRecord Bytes) : Prop where
  indices_eq : db.indices = [index]
  sound : index.Sound
  perm : index.entries.Perm db.records
  key_eq : index.key = optionKey
  getIndexKey_eq : index.getIndexKey = OptionRecord.key
  unique : index.duplicatesAllowed = false

namespace Indexed

variable {db : Database OptionRecord Bytes} {index : Index OptionRecord Bytes} {key : Bytes}
  {r r' : OptionRecord}

section

variable (h : Indexed db index)

include h

lemma exists_getBucket (hkey : key.length < MAXLINE) : ∃ i, index.getBucket key = some i := by
  refine index.exists_getBucket ?_
  rw [h.key_eq]
  exact charSum_ne_of_length_lt (hkey.trans (by decide))

lemma equal_iff : index.key.equal (index.getIndexKey r) key = true ↔ r.key = key := by
  rw [h.key_eq, h.getIndexKey_eq]
  exact decide_eq_true_iff

lemma eq_of_key_eq (hr : r ∈ db.records) (hr' : r' ∈ db.records)
    (hkey : r.key = r'.key) : r = r' := by
  refine h.sound.eq_of_equal h.unique (h.perm.mem_iff.mpr hr) (h.perm.mem_iff.mpr hr')
    (h.equal_iff.mpr ?_)
  rw [h.getIndexKey_eq, hkey]

lemma findOne (hkey : key.length < MAXLINE) :
    ∃ found, index.findOne key = some found ∧
      ∀ r, found = some r ↔ r ∈ db.records ∧ r.key = key := by
  obtain ⟨i, hi⟩ := h.exists_getBucket hkey
  obtain ⟨found, hf, hs, hn⟩ := h.sound.findOne hi
  refine ⟨found, hf, fun r => ⟨fun hr => ?_, ?_⟩⟩
  · obtain ⟨hmem, he⟩ := hs r hr
    exact ⟨h.perm.mem_iff.mp hmem, h.equal_iff.mp he⟩
  · rintro ⟨hr, rfl⟩
    cases found with
    | none =>
      have hd := hn rfl r (h.perm.mem_iff.mpr hr)
      exact absurd (h.equal_iff.mpr rfl) (by rw [hd]; simp)
    | some r' =>
      obtain ⟨hmem, he⟩ := hs r' rfl
      rw [h.eq_of_key_eq (h.perm.mem_iff.mp hmem) hr (h.equal_iff.mp he)]

lemma add (hkey : r.key.length < MAXLINE) (hf : ∀ r' ∈ db.records, r'.key ≠ r.key) :
    ∃ db' index', db.add r = some (true, db') ∧ Indexed db' index' ∧
      db'.records = r :: db.records := by
  have hik : index.getIndexKey r = r.key := by rw [h.getIndexKey_eq]
  obtain ⟨i, hi⟩ := h.exists_getBucket hkey
  rcases h.sound.add (hik.symm ▸ hi) with hr | ⟨index', ha, hso, hp, -⟩
  · obtain ⟨r', hr', he⟩ := h.sound.exists_of_refused hr
    rw [hik] at he
    exact absurd (h.equal_iff.mp he) (hf r' (h.perm.mem_iff.mp hr'))
  · obtain ⟨-, hs⟩ := Index.add_inv ha
    refine ⟨⟨[index'], r :: db.records, db.destroyed⟩, index', ?_, ⟨rfl, hso,
      hp.trans (h.perm.cons r), hs.key_eq.trans h.key_eq,
      hs.getIndexKey_eq.trans h.getIndexKey_eq,
      hs.duplicatesAllowed_eq.trans h.unique⟩, rfl⟩
    simp only [Database.add, Database.addIndices, h.indices_eq, ha, bind_eq_bind, bind_some]
    rfl

lemma remove (hr : r ∈ db.records) :
    ∃ db' index', db.remove r = some db' ∧ Indexed db' index' ∧
      db'.records = db.records.erase r := by
  obtain ⟨i, hi⟩ := h.sound.exists_getBucket (h.perm.mem_iff.mpr hr)
  obtain ⟨index', hre, hso, hp⟩ := h.sound.remove hi
  obtain ⟨-, hs⟩ := Index.remove_inv hre
  refine ⟨⟨[index'], db.records.erase r, db.destroyed⟩, index', ?_, ⟨rfl, hso,
    hp.trans (h.perm.erase r), hs.key_eq.trans h.key_eq,
    hs.getIndexKey_eq.trans h.getIndexKey_eq,
    hs.duplicatesAllowed_eq.trans h.unique⟩, rfl⟩
  simp only [Database.remove, Database.removeIndices, h.indices_eq, hre, bind_eq_bind, bind_some]
  rfl

end

end Indexed

/-! ## The options -/

lemma valuesOf_concat (key : Bytes) (entries : List (Bytes × Bytes)) (entry : Bytes × Bytes) :
    valuesOf key (entries ++ [entry]) =
      valuesOf key entries ++ if entry.1 = key then [entry.2] else [] := by
  by_cases hkey : entry.1 = key <;> simp [valuesOf, hkey]

lemma joined_concat {values : List Bytes} (hne : values ≠ []) (value : Bytes) :
    joined (values ++ [value]) = joined values ++ 32 :: value := by
  induction values with
  | nil => exact absurd rfl hne
  | cons first values ih =>
    cases values with
    | nil => simp [joined, intercalate]
    | cons second values =>
      have hr := ih (by simp)
      simp only [joined, intercalate, cons_append, intersperse_cons_cons, flatten_cons] at hr ⊢
      rw [hr]
      simp

namespace OptionDatabase

structure Stored (s : OptionDatabase) (entries : List (Bytes × Bytes)) : Prop where
  indexed : ∃ index, Indexed s.database index
  fresh : ∀ r ∈ s.database.records, r.address < s.nextAddress
  apart : ∀ r ∈ s.database.records, ∀ r' ∈ s.database.records, r.address = r'.address → r = r'
  value_eq : ∀ r ∈ s.database.records, s.value r.address = joined (valuesOf r.key entries)
  present : ∀ key, (∃ r ∈ s.database.records, r.key = key) ↔ valuesOf key entries ≠ []
  overrun : ∀ join ∈ s.joins, join.written = join.allocated + 1
  joins_iff : ∀ key, (∃ join ∈ s.joins, join.key = key) ↔ 2 ≤ (valuesOf key entries).length

lemma stored_new : new.Stored [] where
  indexed := ⟨_, rfl, Index.sound_of_empty Buckets.entries_empty, by
    rw [Index.entries]
    exact Buckets.entries_empty ▸ .refl _, rfl, rfl, rfl⟩
  fresh := nofun
  apart := nofun
  value_eq := nofun
  present key := ⟨nofun, fun hne => absurd rfl hne⟩
  overrun := nofun
  joins_iff key := ⟨nofun, fun hle => absurd hle (by simp [valuesOf])⟩

variable {s s' : OptionDatabase} {entries : List (Bytes × Bytes)} {key value : Bytes}

lemma findOne_of_indexed {index : Index OptionRecord Bytes} (h : Indexed s.database index) :
    s.findOne key = index.findOne key := by
  simp [findOne, h.indices_eq]

/-- The database after an entry was made in the option `option`, new or old. -/
structure Entered (s : OptionDatabase) (option : OptionRecord) (values : List Bytes)
    (value : Bytes) (s' : OptionDatabase) : Prop where
  indexed : ∃ index, Indexed s'.database index
  mem_iff : ∀ r, r ∈ s'.database.records ↔ r = option ∨ r ∈ s.database.records
  others : ∀ r ∈ s.database.records, r ≠ option →
    r.key ≠ option.key ∧ r.address ≠ option.address
  nextAddress_le : s.nextAddress ≤ s'.nextAddress
  address_lt : option.address < s'.nextAddress
  value_eq : s'.value = Function.update s.value option.address (joined (values ++ [value]))
  joins_eq : (values = [] ∧ s'.joins = s.joins) ∨
    (values ≠ [] ∧ ∃ n, s'.joins = s.joins ++ [⟨option.key, n, n + 1⟩])

section

variable (h : s.Stored entries)

include h

lemma Stored.entered {option : OptionRecord}
    (he : s.Entered option (valuesOf option.key entries) value s') :
    s'.Stored (entries ++ [(option.key, value)]) := by
  have hs : ∀ key, key ≠ option.key →
      valuesOf key (entries ++ [(option.key, value)]) = valuesOf key entries := by
    intro key hne
    rw [valuesOf_concat, if_neg hne.symm, append_nil]
  have how : valuesOf option.key (entries ++ [(option.key, value)]) =
      valuesOf option.key entries ++ [value] := by
    rw [valuesOf_concat, if_pos rfl]
  refine ⟨he.indexed, ?_, ?_, ?_, ?_, ?_, ?_⟩
  · intro r hr
    rcases (he.mem_iff r).mp hr with rfl | hr
    · exact he.address_lt
    · exact (h.fresh r hr).trans_le he.nextAddress_le
  · intro r hr r' hr' ha
    by_contra hne
    rcases (he.mem_iff r).mp hr with rfl | hr
    · have hr' := ((he.mem_iff r').mp hr').resolve_left (Ne.symm hne)
      exact (he.others r' hr' (Ne.symm hne)).2 ha.symm
    · rcases (he.mem_iff r').mp hr' with rfl | hr'
      · exact (he.others r hr hne).2 ha
      · exact hne (h.apart r hr r' hr' ha)
  · intro r hr
    rw [he.value_eq]
    by_cases ho : r = option
    · subst ho
      rw [update_self, how]
    · have hr := ((he.mem_iff r).mp hr).resolve_left ho
      obtain ⟨hkey, ha⟩ := he.others r hr ho
      rw [update_of_ne ha, hs r.key hkey, h.value_eq r hr]
  · intro key
    by_cases hkey : key = option.key
    · subst hkey
      rw [how]
      exact iff_of_true ⟨option, (he.mem_iff option).mpr (.inl rfl), rfl⟩ (by simp)
    · rw [hs key hkey, ← h.present key]
      constructor
      · rintro ⟨r, hr, rfl⟩
        rcases (he.mem_iff r).mp hr with rfl | hr
        · exact absurd rfl hkey
        · exact ⟨r, hr, rfl⟩
      · rintro ⟨r, hr, rfl⟩
        exact ⟨r, (he.mem_iff r).mpr (.inr hr), rfl⟩
  · intro join hjo
    rcases he.joins_eq with ⟨-, hj⟩ | ⟨-, n, hj⟩
    · exact h.overrun join (hj ▸ hjo)
    · rw [hj, mem_append, mem_singleton] at hjo
      rcases hjo with hjo | rfl
      · exact h.overrun join hjo
      · rfl
  · intro key
    have hold := h.joins_iff key
    by_cases hkey : key = option.key
    · subst hkey
      rw [how, length_append, length_singleton]
      rcases he.joins_eq with ⟨hn, hj⟩ | ⟨hne, n, hj⟩
      · rw [hj, hold, hn]
        simp
      · have hpos := length_pos_iff.mpr hne
        refine iff_of_true ⟨⟨option.key, n, n + 1⟩, ?_, rfl⟩ (by omega)
        rw [hj]
        simp
    · rw [hs key hkey, ← hold]
      rcases he.joins_eq with ⟨-, hj⟩ | ⟨-, n, hj⟩
      · rw [hj]
      · rw [hj]
        simp [Ne.symm hkey]

lemma Stored.add_of_new (hkey : key.length < MAXLINE)
    (hn : valuesOf key entries = []) (value : Bytes) :
    ∃ s' option, s.add key value = some (true, s') ∧ option.key = key ∧
      s.Entered option (valuesOf key entries) value s' := by
  obtain ⟨index, hi⟩ := h.indexed
  obtain ⟨found, hfo, hif⟩ := hi.findOne hkey
  have hf : ∀ r ∈ s.database.records, r.key ≠ key :=
    fun r hr hs => (h.present key).mp ⟨r, hr, hs⟩ hn
  obtain rfl : found = none := by
    refine eq_none_iff_forall_ne_some.mpr fun r hr => ?_
    obtain ⟨hmem, hs⟩ := (hif r).mp hr
    exact hf r hmem hs
  obtain ⟨database, index', ha, hi', hre⟩ := hi.add (r := ⟨s.nextAddress, key⟩) hkey hf
  refine ⟨{ s with
    database := database
    value := update s.value s.nextAddress value
    nextAddress := s.nextAddress + 1 }, ⟨s.nextAddress, key⟩, ?_, rfl, ⟨index', hi'⟩,
    fun r => ?_, fun r hr _ => ⟨hf r hr, (h.fresh r hr).ne⟩, Nat.le_succ _, Nat.lt_succ_self _,
    ?_, .inl ⟨hn, rfl⟩⟩
  · simp [add, createRecord, if_neg (not_le.mpr hkey), findOne_of_indexed hi, hfo,
      ha]
  · rw [hre]
    exact mem_cons
  · rw [hn]
    simp [joined, intercalate]

lemma Stored.add_of_old (hkey : key.length < MAXLINE)
    (hold : valuesOf key entries ≠ []) (value : Bytes) :
    ∃ s' option, s.add key value = some (true, s') ∧ option.key = key ∧
      s.Entered option (valuesOf key entries) value s' := by
  obtain ⟨index, hi⟩ := h.indexed
  obtain ⟨found, hf, hif⟩ := hi.findOne hkey
  obtain ⟨option, ho, rfl⟩ := (h.present key).mpr hold
  obtain rfl := (hif option).mpr ⟨ho, rfl⟩
  obtain ⟨database₁, index₁, hrm, hi1, hr1⟩ := hi.remove ho
  have hn : s.database.records.Nodup := hi.perm.nodup_iff.mp (hi.sound.nodup hi.unique)
  have hfr : ∀ r ∈ database₁.records, r.key ≠ option.key := by
    intro r hr hs
    rw [hr1, hn.mem_erase_iff] at hr
    exact hr.1 (hi.eq_of_key_eq hr.2 ho hs)
  obtain ⟨database, index', ha, hi', hre⟩ := hi1.add hkey hfr
  have hmem : ∀ r, r ∈ database.records ↔ r = option ∨ r ∈ s.database.records := by
    intro r
    rw [hre, hr1, mem_cons, hn.mem_erase_iff]
    by_cases hr : r = option <;> simp [hr]
  have hv := h.value_eq option ho
  refine ⟨{ s with
    database := database
    value := update s.value option.address (s.value option.address ++ 32 :: value)
    joins := s.joins ++ [⟨option.key, (s.value option.address).length + value.length + 1,
      (s.value option.address ++ 32 :: value).length + 1⟩] }, option, ?_, rfl,
    ⟨index', hi'⟩, hmem, ?_, le_rfl, h.fresh option ho, ?_,
    .inr ⟨hold, (s.value option.address).length + value.length + 1, ?_⟩⟩
  · simp [add, createRecord, if_neg (not_le.mpr hkey), findOne_of_indexed hi, hf,
      hrm, ha]
  · intro r hr hne
    exact ⟨fun hs => hne (hi.eq_of_key_eq hr ho hs), fun hs => hne (h.apart r hr option ho hs)⟩
  · rw [joined_concat hold, hv]
  · rw [length_append, length_cons, Nat.add_assoc _ _ 1]

/-- **One entry.** -/
theorem Stored.add (hkey : key.length < MAXLINE) (value : Bytes) :
    ∃ s', s.add key value = some (true, s') ∧ s'.Stored (entries ++ [(key, value)]) := by
  obtain ⟨s', option, ha, rfl, he⟩ : ∃ s' option, s.add key value = some (true, s') ∧
      option.key = key ∧ s.Entered option (valuesOf key entries) value s' := by
    by_cases hn : valuesOf key entries = []
    · exact h.add_of_new hkey hn value
    · exact h.add_of_old hkey hn value
  exact ⟨s', ha, h.entered he⟩

end

def KeysFit (entries : List (Bytes × Bytes)) : Prop := ∀ entry ∈ entries, entry.1.length < MAXLINE

/-- **The loop** enters what it reads, and returns. -/
theorem Stored.createLoop (h : s.Stored entries) {lines : List Bytes}
    (hk : KeysFit (lines.filterMap parseOption)) :
    ∃ s', s.createLoop lines = some (true, s') ∧
      s'.Stored (entries ++ lines.filterMap parseOption) := by
  induction lines generalizing s entries with
  | nil => exact ⟨s, rfl, by rwa [filterMap_nil, append_nil]⟩
  | cons line lines ih =>
    unfold createLoop
    cases hp : parseOption line with
    | none =>
      rw [filterMap_cons_none hp] at hk ⊢
      exact ih h hk
    | some entry =>
      obtain ⟨key, value⟩ := entry
      rw [filterMap_cons_some hp] at hk ⊢
      obtain ⟨hkey, hk⟩ := forall_mem_cons.mp hk
      obtain ⟨s1, ha, hs1⟩ := h.add hkey value
      obtain ⟨s', hl, hs'⟩ := ih hs1 hk
      refine ⟨s', ?_, by rwa [append_assoc] at hs'⟩
      simp only [ha, bind_eq_bind, bind_some, if_true]
      exact hl

lemma Stored.find (h : s.Stored entries) (hkey : key.length < MAXLINE) :
    s.find key =
      some (if valuesOf key entries = [] then none else some (joined (valuesOf key entries))) := by
  obtain ⟨index, hi⟩ := h.indexed
  obtain ⟨found, hf, hif⟩ := hi.findOne hkey
  have hfi : s.find key = some (found.map fun r => s.value r.address) := by
    simp [OptionDatabase.find, if_neg (not_le.mpr hkey), findOne_of_indexed hi, hf]
  rw [hfi]
  by_cases hn : valuesOf key entries = []
  · obtain rfl : found = none := by
      refine eq_none_iff_forall_ne_some.mpr fun r hr => ?_
      obtain ⟨hmem, hs⟩ := (hif r).mp hr
      exact (h.present key).mp ⟨r, hmem, hs⟩ hn
    rw [if_pos hn, map_none]
  · obtain ⟨r, hmem, rfl⟩ := (h.present key).mpr hn
    obtain rfl := (hif r).mpr ⟨hmem, rfl⟩
    rw [if_neg hn, map_some, h.value_eq r hmem]

end OptionDatabase

/-! ## The file -/

lemma IsOption.length_lt {line key value : Bytes} (h : IsOption line key value) :
    key.length < line.length := by
  obtain ⟨a, b, rest, ht, -⟩ := h
  have hle : (cString line).length ≤ line.length := (takeWhile_sublist _).length_le
  rw [ht] at hle
  simp at hle
  omega

lemma exists_create {file : Bytes} (filename : Bytes)
    (hsh : ∀ line ∈ fileLines file, line.length < MAXLINE - 1) :
    ∃ s, OptionDatabase.new.create filename (some file) = some (true, s) ∧
      s.Stored ((fileLines file).filterMap parseOption ++ [(Opt_OptionsFile, filename)]) := by
  have hr := filterMap_readLines le_rfl hsh
  have hk : OptionDatabase.KeysFit ((readLines file.length file).filterMap parseOption) := by
    rw [hr]
    intro entry he
    obtain ⟨line, hli, hp⟩ := mem_filterMap.mp he
    have hlt := (parseOption_eq_some_iff.mp hp).length_lt
    have hls := hsh line hli
    omega
  obtain ⟨s1, hl, hs1⟩ := OptionDatabase.stored_new.createLoop hk
  rw [nil_append, hr] at hs1
  have hkey : Opt_OptionsFile.length < MAXLINE := by decide
  obtain ⟨s, ha, hs⟩ := hs1.add hkey filename
  refine ⟨s, ?_, hs⟩
  simp only [OptionDatabase.create, hl, bind_eq_bind, bind_some, if_true]
  exact ha

/-- **The options file.**  A file without overlong lines is read, and then the option of a key is
found as the file has it, and within its buffers, exactly if the key is not the one under which the
file's name is entered, fits its own buffer, and has at most one line. -/
theorem option_right_iff (filename file : Bytes)
    (hshort : ∀ line ∈ fileLines file, line.length < MAXLINE - 1) :
    ∃ s, OptionDatabase.new.create filename (some file) = some (true, s) ∧
      ∀ key values, Values key (fileLines file) values →
        (OptionRight s key values ↔
          key ≠ Opt_OptionsFile ∧ key.length < MAXLINE ∧ values.length ≤ 1) := by
  obtain ⟨s, hcr, h⟩ := exists_create filename hshort
  refine ⟨s, hcr, fun key values hv => ?_⟩
  obtain rfl := hv.eq_valuesOf
  have hc := valuesOf_concat key ((fileLines file).filterMap parseOption)
    (Opt_OptionsFile, filename)
  constructor
  · rintro ⟨hf, hfi⟩
    have hkey : key.length < MAXLINE := by
      by_contra hlo
      rw [OptionDatabase.find, if_pos (not_lt.mp hlo)] at hf
      cases hf
    rw [h.find hkey] at hf
    have hne : key ≠ Opt_OptionsFile := by
      rintro rfl
      rw [if_pos rfl] at hc
      rw [hc, if_neg (by simp)] at hf
      -- the name of the file is found, alone or behind the values
      by_cases hn : valuesOf Opt_OptionsFile ((fileLines file).filterMap parseOption) = []
      · rw [if_pos hn] at hf
        cases hf
      · rw [if_neg hn, joined_concat hn] at hf
        have hl := congrArg List.length (Option.some.inj (Option.some.inj hf))
        simp at hl
    refine ⟨hne, hkey, ?_⟩
    by_contra hm
    rw [if_neg hne.symm, append_nil] at hc
    obtain ⟨join, hj, hs⟩ := (h.joins_iff key).mpr (by rw [hc]; omega)
    have hw := h.overrun join hj
    have hle := hfi join hj hs
    omega
  · rintro ⟨hne, hkey, ho⟩
    rw [if_neg hne.symm, append_nil] at hc
    refine ⟨by rw [h.find hkey, hc], fun join hj hs => ?_⟩
    have hm := (h.joins_iff key).mp ⟨join, hj, hs⟩
    rw [hc] at hm
    omega

/-- The file has the one line `a: x`. -/
theorem option_right_single :
    (∀ line ∈ fileLines [97, 58, 32, 120, 10], line.length < MAXLINE - 1) ∧
      ∃ s, OptionDatabase.new.create [102] (some [97, 58, 32, 120, 10]) = some (true, s) ∧
        OptionRight s [97] [[120]] := by
  have hl : fileLines [97, 58, 32, 120, 10] = [[97, 58, 32, 120], []] := by decide +kernel
  have hs : ∀ line ∈ fileLines [97, 58, 32, 120, 10], line.length < MAXLINE - 1 := by
    rw [hl]
    decide
  obtain ⟨s, hc, hi⟩ := option_right_iff [102] [97, 58, 32, 120, 10] hs
  have hv := values_filterMap [97] (fileLines [97, 58, 32, 120, 10])
  rw [show valuesOf [97] ((fileLines [97, 58, 32, 120, 10]).filterMap parseOption) = [[120]] by
    rw [hl]
    decide +kernel] at hv
  exact ⟨hs, s, hc, (hi [97] [[120]] hv).mpr (by decide)⟩

/-- With the lines `a: x` and `a: y` four bytes are written into a buffer of three, and the key
`global.optfile`, which does not occur, is found. -/
theorem option_overrun :
    ∃ s, OptionDatabase.new.create [102] (some [97, 58, 32, 120, 10, 97, 58, 32, 121, 10]) =
        some (true, s) ∧
      s.find [97] = some (some [120, 32, 121]) ∧
      (∃ join ∈ s.joins, join.key = [97] ∧ join.allocated = 3 ∧ join.written = 4) ∧
      s.find Opt_OptionsFile = some (some [102]) := by
  have hc : ((OptionDatabase.new.create [102]
      (some [97, 58, 32, 120, 10, 97, 58, 32, 121, 10])).any fun r => r.1 &&
        r.2.find [97] = some (some [120, 32, 121]) &&
        r.2.joins.any (fun join => join.key = [97] && join.allocated = 3 && join.written = 4) &&
        r.2.find Opt_OptionsFile = some (some [102])) = true := by
    decide +kernel
  obtain ⟨⟨created, s⟩, hc, he⟩ := (Option.any_eq_true _ _).mp hc
  simp only [Bool.and_eq_true, decide_eq_true_eq, List.any_eq_true] at he
  obtain ⟨⟨⟨rfl, hf⟩, join, hj, ⟨hkey, ha⟩, hw⟩, hn⟩ := he
  exact ⟨s, hc, hf, ⟨join, hj, hkey, ha, hw⟩, hn⟩

end Glomop.Share
