import Glomop.Frontend.ParseUpref
import Glomop.Lib.Threads

/-!
# User preferences

The preferences of the users are in a database, with a cache of one entry a bucket in front of it.
Each access to one of them is a step; the calls of any number of threads interleave.

* A read that misses can put back what it fetched before a write (`staleFill`).
* The cache is cleared by setting the keys to 0, which is also the key of a user.
* If two changes of one user's preferences overlap, the second one to write undoes the first
  (`overlapping_changes_lose`, `changes_kept`).

Source: `userpref.h`, `userpref.c`.
-/

namespace Glomop.UserPref

open Lib Rpc Frontend Function List Option

variable {D : Type}

/-! ## Cache and database -/

abbrev USERCACHE_SIZE : ℕ := 401

structure UserPrefsCache (D : Type) where
  key : UInt32
  al : ArgumentList D

section Defaults

variable [Zero D]

def zeroSlot : Slot D where
  type := .typeInt
  id := 0
  arg_int := 0
  arg_string := List.replicate MAX_ARG_STRING 0
  arg_double := 0
  arg_string_length := length_zeros

def intSlot (id : UInt32) (n : Int32) : Slot D := { zeroSlot with id := id, arg_int := n }

/-- `default_args`, with the ids of `ARGS.h`: `FRONT_EXPERT`, `FRONT_QUALITY`, `FRONT_SHOW_ICON`,
`FRONT_NO_DISTILL`. -/
def default_args : List (Slot D) := [intSlot 7 0, intSlot 5 3, intSlot 6 1, intSlot 1 0]

/-- `default_prefs`, as `init_prefs` fills it. -/
def default_prefs : ArgumentList D where
  nargs := 4
  arg := default_args ++ List.replicate (MAX_ARGS - 4) zeroSlot
  arg_length := by simp [default_args, MAX_ARGS]
  nargs_le := by decide

def emptyList : ArgumentList D where
  nargs := 0
  arg := List.replicate MAX_ARGS zeroSlot
  arg_length := by simp
  nargs_le := by decide

lemma default_prefs_nodup : (default_prefs (D := D)).ids.Nodup := by
  have hi : (default_prefs (D := D)).ids = [7, 5, 6, 1] := rfl
  rw [hi]
  decide

end Defaults

def hash (key : UInt32) : Fin USERCACHE_SIZE :=
  ⟨key.toNat % USERCACHE_SIZE, Nat.mod_lt _ (by decide)⟩

/-- The user cache and the database. -/
structure Memory (D : Type) where
  userCache : Fin USERCACHE_SIZE → UserPrefsCache D
  prefs : UInt32 → Option (ArgumentList D)
  filled : Fin USERCACHE_SIZE → Bool

namespace Memory

def inUcache (m : Memory D) (ukey : UInt32) : Option (ArgumentList D) :=
  if (m.userCache (hash ukey)).key = ukey then some (m.userCache (hash ukey)).al else none

def putInUcache (m : Memory D) (ukey : UInt32) (al : ArgumentList D) : Memory D :=
  { m with
    userCache := Function.update m.userCache (hash ukey) ⟨ukey, al⟩
    filled := Function.update m.filled (hash ukey) true }

def getFromDBM [Zero D] (m : Memory D) (ukey : UInt32) : ArgumentList D :=
  (m.prefs ukey).getD default_prefs

def writeToDBM (m : Memory D) (ukey : UInt32) (al : ArgumentList D) : Memory D :=
  { m with prefs := Function.update m.prefs ukey (some al) }

/-- The list that a call returns which nothing interrupts.  `get_userprefs`, `getFromUcache`. -/
def getUserprefs [Zero D] (m : Memory D) (ukey : UInt32) : ArgumentList D × Memory D :=
  match m.inUcache ukey with
  | some al => (al, m)
  | none => (m.getFromDBM ukey, m.putInUcache ukey (m.getFromDBM ukey))

/-- The memory after `init_prefs` on a database. -/
def init_prefs [Zero D] (prefs : UInt32 → Option (ArgumentList D)) : Memory D :=
  ⟨fun _ => ⟨0, emptyList⟩, prefs, fun _ => false⟩

end Memory

/-! ## The calls of the threads -/

inductive Call (D : Type)
  | getUserprefs (ukey : UInt32)
  | setUserprefs (ukey : UInt32) (al : ArgumentList D)
  | change (ukey : UInt32) (c : Change D)

open Call

inductive Activity (D : Type)
  | look (ukey : UInt32)
  | fetch (ukey : UInt32)
  | fill (ukey : UInt32) (al : ArgumentList D)
  | read (ukey : UInt32) (c : Change D)
  | put (ukey : UInt32) (c : Option (Change D)) (al : ArgumentList D)
  | store (ukey : UInt32) (c : Option (Change D)) (al : ArgumentList D)

open Activity

/-- The state of the front end: the memory, where the threads are in their calls, and the changes of
each user's preferences that have succeeded. -/
structure State (D : Type) where
  memory : Memory D
  threads : ℕ → Option (Activity D)
  finished : UInt32 → List (Change D)

/-- The first access of a call.  `parse_and_change_prefs` returns at once if the key is 0.
`get_userprefs`, `set_userprefs`, `set_oneuserpref`; `parse_upref.c` `parse_and_change_prefs`. -/
def Call.enter : Call D → Option (Activity D)
  | getUserprefs ukey => some (.look ukey)
  | setUserprefs ukey al => some (.put ukey none al)
  | change ukey (.one a) => some (.read ukey (.one a))
  | change ukey (.parse url errorString) =>
    if ukey = 0 then none else some (.read ukey (.parse url errorString))

section Machine

variable [Zero D] (scanDouble : Bytes → Option D)

/-- What a thread does next, after its access has been made. -/
def Activity.after (m : Memory D) : Activity D → Option (Activity D)
  | .look ukey => if (m.inUcache ukey).isSome then none else some (.fetch ukey)
  | .fetch ukey => some (.fill ukey (m.getFromDBM ukey))
  | .fill _ _ => none
  | .read ukey c => (c.edit scanDouble (m.getFromDBM ukey)).map (.put ukey (some c))
  | .put ukey c al => some (.store ukey c al)
  | .store _ _ _ => none

def Activity.access (m : Memory D) : Activity D → Memory D
  | .fill ukey al => m.putInUcache ukey al
  | .put ukey _ al => m.putInUcache ukey al
  | .store ukey _ al => m.writeToDBM ukey al
  | _ => m

def Activity.finish (finished : UInt32 → List (Change D)) : Activity D → UInt32 → List (Change D)
  | .store ukey (some c) _ => Function.update finished ukey (c :: finished ukey)
  | _ => finished

/-- What happens in the front end: a thread makes a call, or the next access of its call. -/
inductive Event (D : Type)
  | call (t : ℕ) (c : Call D)
  | access (t : ℕ)

def next (s : State D) : Event D → Option (State D)
  | .call t c =>
    if (s.threads t).isNone then
      some { s with threads := Function.update s.threads t c.enter }
    else none
  | .access t =>
    (s.threads t).map fun a =>
      ⟨a.access s.memory, Function.update s.threads t (a.after scanDouble s.memory),
        a.finish s.finished⟩

def step (s : State D) (e : Event D) (s' : State D) : Prop := next scanDouble s e = some s'

/-- The front end after `init_prefs`. -/
def start (prefs : UInt32 → Option (ArgumentList D)) : State D :=
  ⟨Memory.init_prefs prefs, fun _ => none, fun _ => []⟩

end Machine

def Activity.key : Activity D → UInt32
  | .look ukey | .fetch ukey | .fill ukey _ | .read ukey _ | .put ukey _ _ | .store ukey _ _ => ukey

def Activity.writes : Activity D → Bool
  | .look _ | .fetch _ | .fill _ _ => false
  | .read _ _ | .put _ _ _ | .store _ _ _ => true

def Call.key : Call D → UInt32
  | .getUserprefs ukey | .setUserprefs ukey _ | .change ukey _ => ukey

def Call.writes : Call D → Bool
  | .getUserprefs _ => false
  | .setUserprefs _ _ | .change _ _ => true

variable {al : ArgumentList D} {c : Call D} {e : Event D} {ukey : UInt32}

section Steps

variable {scanDouble : Bytes → Option D} {s s' : State D} {a a' : Activity D} {t : ℕ}

lemma Call.enter_eq (h : c.enter = some a) : a.key = c.key ∧ a.writes = c.writes := by
  rcases c with ukey | ⟨ukey, al⟩ | ⟨ukey, one | ⟨url, errorString⟩⟩
  · cases h
    exact ⟨rfl, rfl⟩
  · cases h
    exact ⟨rfl, rfl⟩
  · cases h
    exact ⟨rfl, rfl⟩
  · rw [enter, ite_none_left_eq_some] at h
    cases h.2
    exact ⟨rfl, rfl⟩

lemma Call.enter_ne_store {change : Option (Change D)} :
    c.enter ≠ some (.store ukey change al) := by
  rcases c with _ | _ | ⟨_, _ | _⟩ <;> simp [enter]

lemma Call.enter_ne_fill : c.enter ≠ some (.fill ukey al) := by
  rcases c with _ | _ | ⟨_, _ | _⟩ <;> simp [enter]

variable [Zero D]

lemma Activity.after_eq {m : Memory D} (h : a.after scanDouble m = some a') :
    a'.key = a.key ∧ a'.writes = a.writes := by
  cases a with
  | look ukey =>
    simp only [after, ite_none_left_eq_some, some.injEq] at h
    obtain ⟨-, rfl⟩ := h
    exact ⟨rfl, rfl⟩
  | fetch | put =>
    cases h
    exact ⟨rfl, rfl⟩
  | fill | store => cases h
  | read ukey c =>
    obtain ⟨al, -, rfl⟩ := map_eq_some_iff.mp h
    exact ⟨rfl, rfl⟩

inductive Outcome (scanDouble : Bytes → Option D) (s : State D) : Event D → State D → Prop
  | call (t : ℕ) (c : Call D) : s.threads t = none →
      Outcome scanDouble s (.call t c) { s with threads := Function.update s.threads t c.enter }
  | access (t : ℕ) (a : Activity D) : s.threads t = some a →
      Outcome scanDouble s (.access t)
        ⟨a.access s.memory, Function.update s.threads t (a.after scanDouble s.memory),
          a.finish s.finished⟩

lemma outcome_of_step (h : step scanDouble s e s') : Outcome scanDouble s e s' := by
  cases e with
  | call t c =>
    simp only [step, next, ite_none_right_eq_some, some.injEq, isNone_iff_eq_none] at h
    obtain ⟨ht, rfl⟩ := h
    exact .call t c ht
  | access t =>
    obtain ⟨a, ht, rfl⟩ := map_eq_some_iff.mp h
    exact .access t a ht

lemma threads_of_run {es : List (Event D)} (hrun : Run (step scanDouble) s es s')
    (ho : ∀ e ∈ es, (∀ c, e ≠ .call t c) ∧ e ≠ .access t) : s'.threads t = s.threads t := by
  induction hrun with
  | nil s => rfl
  | cons hs _ ih =>
    rw [ih fun e he => ho e (mem_cons_of_mem _ he)]
    obtain ⟨hc, ha⟩ := ho _ (.head _)
    cases outcome_of_step hs with
    | call t' c _ =>
      exact update_of_ne (fun heq => hc c (congrArg (Event.call · c) heq.symm)) _ _
    | access t' a _ =>
      exact update_of_ne (fun heq => ha (congrArg Event.access heq.symm)) _ _

end Steps

/-! ## Coherence -/

def Overlap (a a' : Activity D) : Prop := a.writes ∧ a'.key = a.key

/-- No call for the same key is in progress when a call is made, unless neither of them writes. -/
def Calm (s : State D) : Event D → Prop
  | .call _ c => ∀ t a, s.threads t = some a → a.key = c.key → ¬ a.writes ∧ ¬ c.writes
  | .access _ => True

lemma Calm.apart {s : State D} {t : ℕ} (h : Calm s (.call t c))
    (ha : Apart Overlap s.threads) : Apart Overlap (update s.threads t c.enter) := by
  refine ha.start fun b hb t' a' ht' => ?_
  obtain ⟨hkey, hw⟩ := enter_eq hb
  refine ⟨fun ho => ?_, fun ho => ?_⟩
  · exact (h t' a' ht' (ho.2.trans hkey)).2 (hw ▸ ho.1)
  · exact (h t' a' ht' (ho.2.symm.trans hkey)).1 ho.1

section Coherence

variable [Zero D]

def State.stored (s : State D) (ukey : UInt32) : ArgumentList D := s.memory.getFromDBM ukey

lemma getFromDBM_writeToDBM (m : Memory D) (ukey : UInt32) (al : ArgumentList D) (ukey' : UInt32) :
    (m.writeToDBM ukey al).getFromDBM ukey' = if ukey' = ukey then al else m.getFromDBM ukey' := by
  unfold Memory.getFromDBM Memory.writeToDBM
  by_cases h : ukey' = ukey
  · subst h
    simp
  · simp [h]

/-- **The invariant.**  An entry of the cache holds what is stored, except between the two accesses
of a write, where it is ahead of the database; and what a read is about to fill in is what is
stored. -/
structure Coherent (s : State D) : Prop where
  exclusive : Apart Overlap s.threads
  fetched : ∀ t ukey al, s.threads t = some (.fill ukey al) → al = s.stored ukey
  ahead : ∀ t ukey c al, s.threads t = some (.store ukey c al) →
    (s.memory.userCache (hash ukey)).key = ukey → (s.memory.userCache (hash ukey)).al = al
  bucket : ∀ i, s.memory.filled i → hash (s.memory.userCache i).key = i
  entry : ∀ i, s.memory.filled i →
    (∀ t c al, s.threads t ≠ some (.store (s.memory.userCache i).key c al)) →
    (s.memory.userCache i).al = s.stored (s.memory.userCache i).key
  cleared : ∀ i, ¬ s.memory.filled i → (s.memory.userCache i).key = 0

lemma coherent_start (prefs : UInt32 → Option (ArgumentList D)) : Coherent (start prefs) where
  exclusive := nofun
  fetched := nofun
  ahead := nofun
  bucket := nofun
  entry := nofun
  cleared := fun _ _ => rfl

namespace Coherent

variable {scanDouble : Bytes → Option D} {s s' : State D} {a : Activity D} {t : ℕ}
  {x : Option (Activity D)} {ukey : UInt32} {c : Option (Change D)} {al : ArgumentList D}
  {finished : UInt32 → List (Change D)}

lemma frame (h : Coherent s) (he : Apart Overlap (update s.threads t x))
    (hl : ∀ ukey c al, s.threads t ≠ some (.store ukey c al))
    (hen : ∀ ukey c al, x ≠ some (.store ukey c al))
    (hf : ∀ ukey al, x = some (.fill ukey al) → al = s.stored ukey) :
    Coherent ⟨s.memory, update s.threads t x, finished⟩ where
  exclusive := he
  fetched := fun t' ukey al ht' => by
    obtain ⟨-, hx⟩ | ⟨-, ht'⟩ := of_update ht'
    · exact hf ukey al hx
    · exact h.fetched t' ukey al ht'
  ahead := fun t' ukey c al ht' => by
    obtain ⟨-, hx⟩ | ⟨-, ht'⟩ := of_update ht'
    · exact absurd hx (hen ukey c al)
    · exact h.ahead t' ukey c al ht'
  bucket := h.bucket
  entry := fun i hi hn => h.entry i hi fun t' c al ht' => by
    have hne : t' ≠ t := fun heq => hl _ _ _ (heq ▸ ht')
    exact hn t' c al ((update_of_ne hne _ _).trans ht')
  cleared := h.cleared

/-- An entry is put into the cache by a thread whose call then is in the middle of a write of the
same list, or has filled in what is stored. -/
lemma put (h : Coherent s) (ht : s.threads t = some a) (hkey : a.key = ukey)
    (hx : x = some (.store ukey c al) ∧ a.writes ∨ x = none ∧ al = s.stored ukey)
    (hex : Apart Overlap (update s.threads t x))
    (hl : ∀ ukey c al, s.threads t ≠ some (.store ukey c al)) :
    Coherent ⟨s.memory.putInUcache ukey al, update s.threads t x, finished⟩ where
  exclusive := hex
  fetched := fun t' ukey' al' ht' => by
    obtain ⟨-, hx'⟩ | ⟨-, ht'⟩ := of_update ht'
    · obtain ⟨rfl, -⟩ | ⟨rfl, -⟩ := hx <;> cases hx'
    · exact h.fetched t' ukey' al' ht'
  ahead := fun t' ukey' c' al' ht' he => by
    change (update s.memory.userCache (hash ukey) ⟨ukey, al⟩ (hash ukey')).key = _ at he
    change (update s.memory.userCache (hash ukey) ⟨ukey, al⟩ (hash ukey')).al = _
    by_cases hh : hash ukey' = hash ukey
    · rw [hh, update_self] at he ⊢
      obtain rfl : ukey = ukey' := he
      obtain ⟨-, hx'⟩ | ⟨hne, ht'⟩ := of_update ht'
      · obtain ⟨rfl, -⟩ | ⟨rfl, -⟩ := hx
        · cases hx'
          rfl
        · cases hx'
      · -- the other thread would be writing, too
        exact absurd (h.exclusive t' _ t a ht' ht ⟨rfl, hkey⟩).symm hne
    · rw [update_of_ne hh] at he ⊢
      obtain ⟨-, hx'⟩ | ⟨-, ht'⟩ := of_update ht'
      · obtain ⟨rfl, -⟩ | ⟨rfl, -⟩ := hx
        · cases hx'
          exact absurd rfl hh
        · cases hx'
      · exact h.ahead t' ukey' c' al' ht' he
  bucket := fun i hi => by
    change hash (update s.memory.userCache (hash ukey) ⟨ukey, al⟩ i).key = i
    change update s.memory.filled (hash ukey) true i = true at hi
    by_cases hh : i = hash ukey
    · rw [hh, update_self]
    · rw [update_of_ne hh] at hi ⊢
      exact h.bucket i hi
  entry := fun i hi hn => by
    change (update s.memory.userCache (hash ukey) ⟨ukey, al⟩ i).al =
      s.stored (update s.memory.userCache (hash ukey) ⟨ukey, al⟩ i).key
    change update s.memory.filled (hash ukey) true i = true at hi
    change ∀ t' c' al', update s.threads t x t' ≠
      some (.store (update s.memory.userCache (hash ukey) ⟨ukey, al⟩ i).key c' al') at hn
    by_cases hh : i = hash ukey
    · rw [hh, update_self] at hn ⊢
      obtain ⟨rfl, -⟩ | ⟨-, heq⟩ := hx
      · exact absurd (update_self _ _ _) (hn t c al)
      · exact heq
    · rw [update_of_ne hh] at hi hn ⊢
      refine h.entry i hi fun t' c' al' ht' => ?_
      have hne : t' ≠ t := fun heq => hl _ _ _ (heq ▸ ht')
      exact hn t' c' al' ((update_of_ne hne _ _).trans ht')
  cleared := fun i hi => by
    change ¬ update s.memory.filled (hash ukey) true i = true at hi
    change (update s.memory.userCache (hash ukey) ⟨ukey, al⟩ i).key = 0
    by_cases hh : i = hash ukey
    · rw [hh, update_self] at hi
      exact absurd rfl hi
    · rw [update_of_ne hh] at hi ⊢
      exact h.cleared i hi

lemma store (h : Coherent s) (ht : s.threads t = some (.store ukey c al)) :
    Coherent ⟨s.memory.writeToDBM ukey al, update s.threads t none, finished⟩ where
  exclusive := h.exclusive.advance ht nofun
  fetched := fun t' ukey' al' ht' => by
    obtain ⟨-, hx⟩ | ⟨hne, ht'⟩ := of_update ht'
    · cases hx
    · have hkey : ukey' ≠ ukey := fun heq =>
        hne (h.exclusive t _ t' _ ht ht' ⟨rfl, heq⟩)
      refine (h.fetched t' ukey' al' ht').trans ?_
      exact ((getFromDBM_writeToDBM s.memory ukey al ukey').trans (if_neg hkey)).symm
  ahead := fun t' ukey' c' al' ht' he => by
    obtain ⟨-, hx⟩ | ⟨-, ht'⟩ := of_update ht'
    · cases hx
    · exact h.ahead t' ukey' c' al' ht' he
  bucket := h.bucket
  entry := fun i hi hn => by
    refine Eq.trans ?_ (getFromDBM_writeToDBM s.memory ukey al (s.memory.userCache i).key).symm
    split_ifs with hkey
    · have hi' : hash ukey = i := hkey ▸ h.bucket i hi
      subst hi'
      exact h.ahead t ukey c al ht hkey
    · refine h.entry i hi fun t' c' al' ht' => ?_
      have hne : t' ≠ t := fun heq => by
        rw [heq, ht] at ht'
        cases ht'
        exact hkey rfl
      exact hn t' c' al' ((update_of_ne hne _ _).trans ht')
  cleared := h.cleared

lemma step (h : Coherent s) (hc : Calm s e) (hs : step scanDouble s e s') :
    Coherent s' := by
  cases outcome_of_step hs with
  | call t call hi =>
    refine h.frame (hc.apart h.exclusive) (fun _ _ _ ht => ?_) (fun _ _ _ hx => ?_) fun _ _ hx => ?_
    · rw [hi] at ht
      cases ht
    · exact enter_ne_store hx
    · exact absurd hx enter_ne_fill
  | access t a ht =>
    have he : Apart Overlap (update s.threads t (a.after scanDouble s.memory)) :=
      h.exclusive.advance ht fun _ hx a' => by simp [Overlap, after_eq hx]
    cases a with
    | look | read =>
      refine h.frame he (fun _ _ _ heq => by simp [ht] at heq) (fun _ _ _ hx => ?_) fun _ _ hx => ?_
      all_goals simp [Activity.after] at hx
    | fetch ukey =>
      refine h.frame he (fun _ _ _ heq => by simp [ht] at heq) (fun _ _ _ hx => ?_) fun _ _ hx => ?_
      · cases hx
      · cases hx
        rfl
    | fill ukey al =>
      exact h.put (c := none) ht rfl (Or.inr ⟨rfl, h.fetched t ukey al ht⟩) he
        fun _ _ _ heq => by simp [ht] at heq
    | put ukey c al =>
      exact h.put ht rfl (Or.inl ⟨rfl, rfl⟩) he fun _ _ _ heq => by simp [ht] at heq
    | store ukey c al => exact h.store ht

end Coherent

/-- **Coherence.**  If no write of a user's preferences overlaps with another call for that user,
then in every state without a call in progress the entries that have been put into the cache hold
what is stored for their keys, and `get_userprefs` returns what is stored.  For the key 0 an entry
must have been put into the cache, since the cleared cache looks as if it held one. -/
theorem coherent_of_run {scanDouble : Bytes → Option D} {prefs : UInt32 → Option (ArgumentList D)}
    {es : List (Event D)} {s : State D}
    (hrun : Run (Guarded Calm (step scanDouble)) (start prefs) es s)
    (hquiet : ∀ t, s.threads t = none) :
    (∀ i, s.memory.filled i → (s.memory.userCache i).al = s.stored (s.memory.userCache i).key) ∧
      ∀ ukey, (ukey = 0 → s.memory.filled (hash 0)) →
        (s.memory.getUserprefs ukey).1 = s.stored ukey := by
  have hc : Coherent s := hrun.invariant (fun _ _ _ h hs => h.step hs.1 hs.2) (coherent_start prefs)
  have he (i : Fin USERCACHE_SIZE) (hi : s.memory.filled i) :
      (s.memory.userCache i).al = s.stored (s.memory.userCache i).key :=
    hc.entry i hi fun t _ _ ht => by simp [hquiet t] at ht
  refine ⟨he, fun ukey hz => ?_⟩
  unfold Memory.getUserprefs Memory.inUcache
  split_ifs with hkey
  · have hf : s.memory.filled (hash ukey) := by
      by_contra hn
      -- a cleared entry has the key 0
      have hu : ukey = 0 := hkey.symm.trans (hc.cleared _ hn)
      subst hu
      exact hn (hz rfl)
    have heq := he _ hf
    rwa [hkey] at heq
  · rfl

end Coherence

/-! ### Runs of the front end -/

def noDouble : Bytes → Option ℕ := fun _ => none

/-- A user's list with one more argument than the defaults. -/
def otherPrefs : ArgumentList ℕ := default_prefs.claim 100 (by decide)

/-- Two threads set the preferences of two users, access by access in turn. -/
theorem coherent_of_run_sample :
    ∃ s, Run (Guarded Calm (step noDouble)) (start fun _ => none)
        [.call 0 (.setUserprefs 9 otherPrefs), .call 1 (.setUserprefs 4 otherPrefs), .access 0,
          .access 1, .access 1, .access 0] s ∧
      (s.memory.getUserprefs 9).1 = s.stored 9 ∧ (s.memory.getUserprefs 4).1 = s.stored 4 ∧
      (s.stored 9).nargs = 5 := by
  have hc : Calm { start fun _ => none with
      threads := update (fun _ => none) 0 (Call.setUserprefs 9 otherPrefs).enter }
      (.call 1 (.setUserprefs 4 otherPrefs)) := by
    intro t a ht hk
    by_cases h : t = 0
    · subst h
      cases ht
      exact absurd hk (by decide)
    · simp [h] at ht
  have hrun : Run (Guarded Calm (step noDouble)) (start fun _ => none)
      [.call 0 (.setUserprefs 9 otherPrefs), .call 1 (.setUserprefs 4 otherPrefs), .access 0,
        .access 1, .access 1, .access 0] _ :=
    .cons ⟨nofun, rfl⟩ <| .cons ⟨hc, rfl⟩ <| .cons ⟨trivial, rfl⟩ <| .cons ⟨trivial, rfl⟩ <|
      .cons ⟨trivial, rfl⟩ <| .cons ⟨trivial, rfl⟩ <| .nil _
  have hco := (coherent_of_run hrun fun t => by
    by_cases h : t = 0 <;> by_cases h' : t = 1 <;> simp [h, h', Activity.after, start]).2
  exact ⟨_, hrun, hco 9 (by decide), hco 4 (by decide), rfl⟩

/-- A read of the preferences of the user 9 misses and fetches the defaults; then a write puts and
stores others; then the read fills in the defaults.  And before any call, the user 0 seems to have
an empty list. -/
theorem staleFill :
    (∃ s, Run (step noDouble) (start fun _ => none)
        [.call 0 (.getUserprefs 9), .access 0, .access 0, .call 1 (.setUserprefs 9 otherPrefs),
          .access 1, .access 1, .access 0] s ∧
      (∀ t, s.threads t = none) ∧ s.memory.filled (hash 9) ∧
      (s.memory.userCache (hash 9)).key = 9 ∧
      (s.memory.userCache (hash 9)).al ≠ s.stored 9 ∧ (s.memory.getUserprefs 9).1 ≠ s.stored 9) ∧
    ((start fun _ => none).memory.getUserprefs 0).1 ≠ (start fun _ => none).stored (D := ℕ) 0 := by
  refine ⟨?_, ?_⟩
  · have hr : (replay (fun _ _ => True) (next noDouble) (start fun _ => none)
        [.call 0 (.getUserprefs 9), .access 0, .access 0, .call 1 (.setUserprefs 9 otherPrefs),
          .access 1, .access 1, .access 0]).any (fun s =>
        (s.threads 0).isNone ∧ (s.threads 1).isNone ∧ s.memory.filled (hash 9) ∧
          (s.memory.userCache (hash 9)).key = 9 ∧ (s.memory.userCache (hash 9)).al.nargs = 4 ∧
          (s.stored 9).nargs = 5 ∧ (s.memory.getUserprefs 9).1.nargs = 4) = true := by
      decide +kernel
    obtain ⟨s, hrun, h0, h1, hf, hkey, hal, hst, hg⟩ := exists_run_of_decide hr
    refine ⟨s, hrun, fun t => ?_, hf, hkey, fun heq => ?_, fun heq => ?_⟩
    · by_cases ht0 : t = 0
      · exact ht0 ▸ isNone_iff_eq_none.mp h0
      · by_cases ht1 : t = 1
        · exact ht1 ▸ isNone_iff_eq_none.mp h1
        · exact threads_of_run hrun (by simp [Ne.symm ht0, Ne.symm ht1])
    · rw [heq] at hal
      omega
    · rw [heq] at hg
      omega
  · intro heq
    have hn := congrArg ArgumentList.nargs heq
    exact absurd hn (by decide +kernel)

section Changes

def Rivals (ukey : UInt32) (a a' : Activity D) : Prop :=
  a.writes ∧ a'.writes ∧ a.key = ukey ∧ a'.key = ukey

def Activity.Holds (a : Activity D) (ukey : UInt32) (c : Option (Change D)) (al : ArgumentList D) :
    Prop :=
  a = .put ukey c al ∨ a = .store ukey c al

lemma Activity.Holds.rival {a : Activity D} {c : Option (Change D)} (h : a.Holds ukey c al) :
    a.writes ∧ a.key = ukey := by
  obtain rfl | rfl := h <;> exact ⟨rfl, rfl⟩

variable [Zero D]

/-- The preferences of a user are only changed, by one thread at a time, and there is room for what
a change adds. -/
def Serial (ukey : UInt32) (s : State D) : Event D → Prop
  | .call _ (.getUserprefs _) => True
  | .call _ (.setUserprefs ukey' _) => ukey' ≠ ukey
  | .call _ (.change ukey' _) =>
    ukey' = ukey → ∀ t a, s.threads t = some a → a.key = ukey → ¬ a.writes
  | .access t => ∀ c, s.threads t = some (.read ukey c) → c.Fits (s.stored ukey)

lemma Serial.apart {s : State D} {t : ℕ} (h : Serial ukey s (.call t c))
    (ha : Apart (Rivals ukey) s.threads) :
    Apart (Rivals ukey) (update s.threads t c.enter) := by
  refine ha.start fun b hb t' a' ht' => ?_
  obtain ⟨hkey, hw⟩ := enter_eq hb
  have hf (hb' : b.writes) (hbk : b.key = ukey) (ha' : a'.writes) (hak : a'.key = ukey) :
      False := by
    cases c with
    | getUserprefs ukey' =>
      rw [hw] at hb'
      cases hb'
    | setUserprefs ukey' al => exact h (hkey.symm.trans hbk)
    | change ukey' c => exact h (hkey.symm.trans hbk) t' a' ht' hak ha'
  exact ⟨fun hR => hf hR.1 hR.2.2.1 hR.2.1 hR.2.2.2, fun hR => hf hR.2.1 hR.2.2.2 hR.1 hR.2.2.1⟩

/-- The changes that have finished, if they touch different ids, are present in the list that is
stored; and a list that is about to be stored is the one that is stored now with the change made in
it. -/
structure Kept (scanDouble : Bytes → Option D) (ukey : UInt32) (s : State D) : Prop where
  serial : Apart (Rivals ukey) s.threads
  nodup : (s.stored ukey).ids.Nodup
  edited : ∀ t a c al, s.threads t = some a → a.Holds ukey c al →
    ∃ c', c = some c' ∧ EditedAt c'.ids (s.stored ukey) al ∧ c'.Present scanDouble al
  present : ((s.finished ukey).Pairwise fun c c' => c.ids.Disjoint c'.ids) →
    ∀ c ∈ s.finished ukey, c.Present scanDouble (s.stored ukey)

lemma kept_start {scanDouble : Bytes → Option D} {prefs : UInt32 → Option (ArgumentList D)}
    (hi : ∀ al, prefs ukey = some al → al.ids.Nodup) : Kept scanDouble ukey (start prefs) where
  serial := nofun
  nodup := by
    change ((prefs ukey).getD default_prefs).ids.Nodup
    cases h : prefs ukey with
    | none => exact default_prefs_nodup
    | some al => exact hi al h
  edited := nofun
  present := nofun

namespace Kept

variable {scanDouble : Bytes → Option D} {ukey : UInt32} {s s' : State D} {t : ℕ}
  {x : Option (Activity D)} {memory : Memory D}

section

variable (h : Kept scanDouble ukey s)

include h

lemma frame (hp : memory.prefs = s.memory.prefs)
    (hse : Apart (Rivals ukey) (update s.threads t x))
    (hx : ∀ a c al, x = some a → a.Holds ukey c al →
      ∃ c', c = some c' ∧ EditedAt c'.ids (s.stored ukey) al ∧ c'.Present scanDouble al) :
    Kept scanDouble ukey ⟨memory, update s.threads t x, s.finished⟩ := by
  have hs : State.stored ⟨memory, update s.threads t x, s.finished⟩ ukey = s.stored ukey := by
    simp only [State.stored, Memory.getFromDBM, hp]
  refine ⟨hse, hs ▸ h.nodup, fun t' a c al ht' hh => ?_, hs ▸ h.present⟩
  rw [hs]
  obtain ⟨-, hxa⟩ | ⟨-, ht'⟩ := of_update ht'
  · exact hx a c al hxa hh
  · exact h.edited t' a c al ht' hh

lemma store_other {ukey' : UInt32} {c : Option (Change D)}
    (ht : s.threads t = some (.store ukey' c al)) (hne : ukey ≠ ukey') :
    Kept scanDouble ukey ⟨s.memory.writeToDBM ukey' al, update s.threads t none,
      (store ukey' c al).finish s.finished⟩ := by
  have hs : (s.memory.writeToDBM ukey' al).getFromDBM ukey = s.stored ukey :=
    (getFromDBM_writeToDBM s.memory ukey' al ukey).trans (if_neg hne)
  have hf : (store ukey' c al).finish s.finished ukey = s.finished ukey := by
    cases c with
    | none => rfl
    | some c => exact update_of_ne hne _ _
  refine ⟨h.serial.advance ht nofun, ?_, fun t' a c' al' ht' hh => ?_, fun hd => ?_⟩
  · unfold State.stored
    rw [hs]
    exact h.nodup
  · unfold State.stored
    rw [hs]
    obtain ⟨-, hx⟩ | ⟨-, ht'⟩ := of_update ht'
    · cases hx
    · exact h.edited t' a c' al' ht' hh
  · unfold State.stored
    rw [hs]
    change ∀ c'' ∈ (store ukey' c al).finish s.finished ukey, _
    change ((store ukey' c al).finish s.finished ukey).Pairwise _ at hd
    rw [hf] at hd ⊢
    exact h.present hd

lemma store {c : Option (Change D)} (ht : s.threads t = some (.store ukey c al)) :
    Kept scanDouble ukey ⟨s.memory.writeToDBM ukey al, update s.threads t none,
      (store ukey c al).finish s.finished⟩ := by
  obtain ⟨c, rfl, he, hp⟩ := h.edited t _ c al ht (Or.inr rfl)
  have hs : (s.memory.writeToDBM ukey al).getFromDBM ukey = al :=
    (getFromDBM_writeToDBM s.memory ukey al ukey).trans (if_pos rfl)
  have hf : (Activity.store ukey (some c) al).finish s.finished ukey =
      c :: s.finished ukey := update_self _ _ _
  refine ⟨h.serial.advance ht nofun, ?_, fun t' a c' al' ht' hh => ?_, fun hd => ?_⟩
  · unfold State.stored
    rw [hs]
    exact he.nodup
  · obtain ⟨-, hx⟩ | ⟨hne, ht'⟩ := of_update ht'
    · cases hx
    · obtain ⟨hw, hkey⟩ := hh.rival
      exact absurd (h.serial t _ t' a ht ht' ⟨rfl, hw, rfl, hkey⟩) hne
  · unfold State.stored
    rw [hs]
    change ∀ c' ∈ (Activity.store ukey (some c) al).finish s.finished ukey, _
    change ((Activity.store ukey (some c) al).finish s.finished ukey).Pairwise _ at hd
    rw [hf] at hd ⊢
    obtain ⟨hn, hold⟩ := pairwise_cons.mp hd
    intro c' hc'
    obtain rfl | hc' := mem_cons.mp hc'
    · exact hp
    · refine (h.present hold c' hc').congr fun id hid => he.other id fun hmem => ?_
      exact hn c' hc' hmem hid

lemma step (hok : Serial ukey s e)
    (hst : step scanDouble s e s') : Kept scanDouble ukey s' := by
  cases outcome_of_step hst with
  | call t call hi =>
    refine h.frame rfl (hok.apart h.serial) fun a c al hx hh => ?_
    -- of the calls that have a list at once, none is for this user
    rcases call with _ | ⟨ukey', al'⟩ | ⟨ukey', one | ⟨url, errorString⟩⟩
    · cases hx
      obtain hp | hs := hh <;> cases ‹_›
    · cases hx
      obtain hp | hs := hh
      · cases hp
        exact absurd rfl hok
      · cases hs
    · cases hx
      obtain hp | hs := hh <;> cases ‹_›
    · rw [enter, ite_none_left_eq_some] at hx
      cases hx.2
      obtain hp | hs := hh <;> cases ‹_›
  | access t a ht =>
    have hse : Apart (Rivals ukey) (update s.threads t (a.after scanDouble s.memory)) := by
      refine h.serial.advance ht fun _ hx a' => ?_
      obtain ⟨hkey, hw⟩ := after_eq hx
      simp [Rivals, hkey, hw]
    cases a with
    | look ukey' =>
      refine h.frame rfl hse fun a c al hx hh => ?_
      rw [Activity.after, ite_none_left_eq_some] at hx
      cases hx.2
      obtain hp | hs := hh <;> cases ‹_›
    | fetch ukey' =>
      refine h.frame rfl hse fun a c al hx hh => ?_
      cases hx
      obtain hp | hs := hh <;> cases ‹_›
    | fill ukey' al => exact h.frame rfl hse nofun
    | read ukey' change =>
      refine h.frame rfl hse fun a c al hx hh => ?_
      obtain ⟨al', ha', rfl⟩ := map_eq_some_iff.mp hx
      obtain hp | hs := hh
      · cases hp
        exact ⟨change, rfl, Change.changed h.nodup (hok change ht) ha'⟩
      · cases hs
    | put ukey' change al' =>
      refine h.frame rfl hse fun a c al hx hh => ?_
      cases hx
      obtain hp | hs := hh
      · cases hp
      · cases hs
        exact h.edited t _ change al' ht (Or.inl rfl)
    | store ukey' change al' =>
      by_cases hne : ukey = ukey'
      · subst hne
        exact h.store ht
      · exact h.store_other ht hne

end

end Kept

/-- **No lost update.**  If the changes of a user's preferences do not overlap, there is room for
what they add, and the list in the database had distinct ids, then the changes that have succeeded
are present in the list that is stored, if they touch different ids. -/
theorem changes_kept {scanDouble : Bytes → Option D} {prefs : UInt32 → Option (ArgumentList D)}
    {ukey : UInt32} {es : List (Event D)} {s : State D}
    (hids : ∀ al, prefs ukey = some al → al.ids.Nodup)
    (hrun : Run (Guarded (Serial ukey) (step scanDouble)) (start prefs) es s)
    (hdisjoint : (s.finished ukey).Pairwise fun c c' => c.ids.Disjoint c'.ids) :
    ∀ c ∈ s.finished ukey, c.Present scanDouble (s.stored ukey) := by
  have hk : Kept scanDouble ukey s :=
    hrun.invariant (fun _ _ _ h hs => h.step hs.1 hs.2) (kept_start hids)
  exact hk.present hdisjoint

/-- Two changes of the user 9, one after the other, in a run of the front end from an empty
database. -/
theorem changes_kept_sample :
    ∃ s, Run (Guarded (Serial 9) (step noDouble)) (start fun _ => none)
        [.call 0 (.change 9 (.one (intSlot 100 1))), .access 0, .access 0, .access 0,
          .call 1 (.change 9 (.one (intSlot 101 2))), .access 1, .access 1, .access 1] s ∧
      s.finished 9 = [.one (intSlot 101 2), .one (intSlot 100 1)] ∧
      ∀ c ∈ s.finished 9, c.Present noDouble (s.stored 9) := by
  have hrun : Run (Guarded (Serial 9) (step noDouble)) (start fun _ => none)
      [.call 0 (.change 9 (.one (intSlot 100 1))), .access 0, .access 0, .access 0,
        .call 1 (.change 9 (.one (intSlot 101 2))), .access 1, .access 1, .access 1] _ :=
    .cons ⟨fun _ t a h => (by cases h), rfl⟩
      (.cons ⟨fun c h => (by cases h; trivial), rfl⟩
        (.cons ⟨fun c h => (by cases h), rfl⟩
          (.cons ⟨fun c h => (by cases h), rfl⟩
            -- thread 0 has left its call
            (.cons ⟨fun _ t a h =>
                (by by_cases ht : t = 0 <;> simp [ht, start, Activity.after] at h), rfl⟩
              (.cons ⟨fun c h => (by cases h; trivial), rfl⟩
                (.cons ⟨fun c h => (by cases h), rfl⟩
                  (.cons ⟨fun c h => (by cases h), rfl⟩ (.nil _))))))))
  refine ⟨_, hrun, rfl, changes_kept (fun al h => by cases h) hrun ?_⟩
  exact pairwise_pair.mpr (by simp [Change.ids, intSlot])

def fullPrefs : ArgumentList ℕ where
  nargs := MAX_ARGS
  arg := (List.range MAX_ARGS).map fun i => intSlot (UInt32.ofNat i) 0
  arg_length := by simp
  nargs_le := le_refl _

/-- Two threads change the preferences of the user 9, and both fetch the list before one writes it:
when both have finished, the first change is gone.  And with a full list, a URL's new argument
`i100=5` is not entered, though the call succeeds. -/
theorem overlapping_changes_lose :
    (∃ s, Run (step noDouble) (start fun _ => none)
        [.call 0 (.change 9 (.one (intSlot 100 1))), .call 1 (.change 9 (.one (intSlot 101 2))),
          .access 0, .access 1, .access 0, .access 0, .access 1, .access 1] s ∧
      s.finished 9 = [.one (intSlot 101 2), .one (intSlot 100 1)] ∧
      ¬ (Change.one (intSlot 100 1)).Present noDouble (s.stored 9)) ∧
    ∃ s, Run (step noDouble) (start fun _ => some fullPrefs)
        [.call 0 (.change 9 (.one (intSlot 7 1))), .access 0, .access 0, .access 0,
          .call 0 (.change 9 (.parse [63, 105, 49, 48, 48, 61, 53] false)), .access 0, .access 0,
          .access 0] s ∧
      s.finished 9 = [.parse [63, 105, 49, 48, 48, 61, 53] false, .one (intSlot 7 1)] ∧
      ¬ (Change.parse [63, 105, 49, 48, 48, 61, 53] false).Present noDouble (s.stored 9) := by
  refine ⟨?_, ?_⟩
  · refine ⟨_, .cons rfl (.cons rfl (.cons rfl (.cons rfl (.cons rfl (.cons rfl (.cons rfl
      (.cons rfl (.nil _)))))))), rfl, fun hp => ?_⟩
    have hf := congrArg Option.isSome hp
    exact absurd hf (by decide +kernel)
  · refine ⟨_, .cons rfl (.cons rfl (.cons rfl (.cons rfl (.cons rfl (.cons rfl (.cons rfl
      (.cons rfl (.nil _)))))))), rfl, fun hp => ?_⟩
    have ht : urlTokens [63, 105, 49, 48, 48, 61, 53] = [] ++ ⟨105, 100, [53]⟩ :: [] := by
      decide +kernel
    obtain ⟨_, _, -, hf⟩ := hp [] ⟨105, 100, [53]⟩ [] ht (by simp)
    have hs := (congrArg Option.isSome hf).trans isSome_some
    exact absurd hs (by decide +kernel)

end Changes

end Glomop.UserPref
