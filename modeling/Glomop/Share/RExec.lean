import Glomop.Lib.CText
import Glomop.Lib.Ring
import Glomop.Lib.Run

/-!
# The choice of a host

`RExec` counts the processes on each host of a list and goes around it from `currentHost` on to find
one of the least loaded, with the smallest priority number among them.  `Initialize` and `Update`
replace the list and touch neither `minLoadLevel` nor `currentHost` (`update_misleads`); an entry
without a name is a host like the others, and the priority `-1` also marks that no host was found
yet.  `leastLoaded_of_run`: without these the choice is right.  Load levels do not overflow.
Source: `rexec.h`, `rexec.cc`.
-/

namespace Glomop.Share

open Lib List

/-! ## Hosts -/

abbrev MAX_HOSTNAME : ℕ := 256

/-- The character `,`. -/
abbrev comma : UInt8 := 44

/-- The character `*`, in front of a priority. -/
abbrev star : UInt8 := 42

structure Host where
  name : Bytes
  ipAddress : Bytes
  priority : Int32
  /-- An `int`, which is never negative. -/
  loadLevel : ℕ
deriving DecidableEq

namespace Host

/-- A host as it is allocated; its priority is what was in the memory.  `RExec::Host::Host`. -/
def blank (garbage : Int32) : Host := ⟨[], [], garbage, 0⟩

/-- The text behind the last `*` of an entry. -/
def priorityText (entry : Bytes) : Option Bytes :=
  if star ∈ entry then some (entry.reverse.takeWhile (· ≠ star)).reverse else none

/-- A host from the text of an entry; `resolve` gives the address for a name, or the empty text.
`RExec::Initialize`, `RExec::Host::Initialize`. -/
def ofEntry (resolve : Bytes → Bytes) (entry : Bytes) : Host where
  name := entry.takeWhile (· ≠ star)
  ipAddress := resolve (entry.takeWhile (· ≠ star))
  priority := ((priorityText entry).bind scanInt).getD 0
  loadLevel := 0

end Host

/-- One round of the loop of `RExec::Initialize`. -/
inductive Entry
  | finished
  | malformed
  | entry (text rest : Bytes)

/-- The next entry of a list of hosts.  `RExec::Initialize`. -/
def nextEntry (text : Bytes) : Entry :=
  let text := text.dropWhile isSpace
  if text = [] then .finished
  else
    let inEntry := fun c => c ≠ comma && !isSpace c
    if (text.takeWhile inEntry).length > MAX_HOSTNAME - 1 then .malformed
    else
      match (text.dropWhile inEntry).dropWhile isSpace with
      | [] => .entry (text.takeWhile inEntry) []
      | c :: rest => if c = comma then .entry (text.takeWhile inEntry) rest else .malformed

def parseHosts (resolve : Bytes → Bytes) : ℕ → Bytes → Bool × List Host
  | 0, _ => (true, [])
  | slots + 1, text =>
    match nextEntry text with
    | .finished => (true, [])
    | .malformed => (false, [])
    | .entry entry rest =>
      let (ok, hosts) := parseHosts resolve slots rest
      (ok, .ofEntry resolve entry :: hosts)

/-- The array has one element more than the text has commas; those that get no entry stay blank.
`RExec::Initialize`. -/
def initializeHosts (resolve : Bytes → Bytes) (garbage : ℕ → Int32) (hosts_ : Bytes) :
    Bool × List Host :=
  let numberOfHosts := hosts_.count comma + 1
  let (ok, hosts) := parseHosts resolve numberOfHosts hosts_
  (ok, hosts ++ (List.range (numberOfHosts - hosts.length)).map fun i => .blank (garbage i))

/-! ## The object -/

/-- `hosts` is empty if the pointer is `NULL`; `currentHost` is `none` for `-1`. -/
structure RExec where
  rsh : Option Bytes
  rshArgs : Option Bytes
  hosts : List Host
  minLoadLevel : ℕ
  currentHost : Option ℕ

namespace RExec

/-- `RExec::RExec`. -/
def new : RExec := ⟨none, none, [], 0, none⟩

/-- An option that is `NULL` or empty is kept as `NULL`. -/
def nonempty (text : Bytes) : Option Bytes := if text = [] then none else some text

/-- `RExec::Initialize`. -/
def initializeRExec (s : RExec) (rsh rshArgs hosts_ : Bytes) (resolve : Bytes → Bytes)
    (garbage : ℕ → Int32) : Bool × RExec :=
  let (ok, hosts) := initializeHosts resolve garbage hosts_
  (ok, { s with rsh := nonempty rsh, rshArgs := nonempty rshArgs, hosts := hosts })

def carryOver (oldHosts : List Host) (host : Host) : Host :=
  match oldHosts.find? fun old => host.name = old.name with
  | some old => { host with loadLevel := old.loadLevel }
  | none => host

/-- Also a successful update returns `gm_False`. -/
def update (s : RExec) (rsh rshArgs hosts_ : Bytes) (resolve : Bytes → Bytes)
    (garbage : ℕ → Int32) : Bool × RExec :=
  let (ok, s') := s.initializeRExec rsh rshArgs hosts_ resolve garbage
  if ok = false then (false, s')
  else (false, { s' with hosts := s'.hosts.map (carryOver s.hosts) })

def findByIP (s : RExec) (ipAddress : Bytes) : Option ℕ :=
  s.hosts.findIdx? fun host => ipAddress = host.ipAddress

def recomputeMinLoadLevel (s : RExec) : RExec :=
  match s.hosts with
  | [] => s
  | host :: hosts =>
    { s with minLoadLevel := hosts.foldl (fun least h =>
        if h.loadLevel < least then h.loadLevel else least) host.loadLevel }

/-- Change the load level of the host with an address.  `RExec::UpLevel`, `RExec::DownLevel`. -/
def changeLevel (s : RExec) (ipAddress : Bytes) (change : ℕ → ℕ) : RExec :=
  match s.findByIP ipAddress with
  | none => s
  | some idx =>
    { s with hosts := s.hosts.modify idx fun h => { h with loadLevel := change h.loadLevel }
      }.recomputeMinLoadLevel

/-- `RExec::UpLevel`, `RExec::Host::UpLevel`. -/
def upLevel (s : RExec) (ipAddress : Bytes) : RExec := s.changeLevel ipAddress (· + 1)

/-- `RExec::DownLevel`, `RExec::Host::DownLevel`. -/
def downLevel (s : RExec) (ipAddress : Bytes) : RExec :=
  s.changeLevel ipAddress fun loadLevel => if loadLevel > 0 then loadLevel - 1 else loadLevel

/-- The best host seen so far; `minPriority` is `-1` at first. -/
structure Best where
  returnIdx : Option ℕ
  minPriority : Int32

def consider (hosts : List Host) (minLoadLevel : ℕ) (best : Best) (idx : ℕ) : Option Best :=
  hosts[idx]?.map fun host =>
    if host.loadLevel ≤ minLoadLevel ∧
        (best.minPriority = -1 ∨ host.priority < best.minPriority) then
      ⟨some idx, host.priority⟩
    else best

/-- `rounds` bounds the rounds of the loop; `none` if it reads outside the array or does not end. -/
def findLeastLoadedHost (rounds : ℕ) (s : RExec) : Option (Option ℕ × RExec) :=
  if s.hosts = [] then some (none, s)
  else
    let currentHost := s.currentHost.getD 0
    (ringScan (consider s.hosts s.minLoadLevel) s.hosts.length currentHost rounds currentHost
      ⟨none, -1⟩).map fun best =>
        match best.returnIdx with
        | some idx => (some idx, { s with currentHost := some ((idx + 1) % s.hosts.length) })
        | none => (none, { s with currentHost := some currentHost })

/-- The return value, and the host that the child process starts the program on, which is none for a
process on this machine. -/
def exec (rounds : ℕ) (s : RExec) (forked : Bool) : Option (Bool × Option ℕ × RExec) :=
  (s.findLeastLoadedHost rounds).map fun (host, s') =>
    (forked, if s.rsh.isSome then host else none, s')

inductive Op
  | initializeRExec (rsh rshArgs hosts : Bytes) (resolve : Bytes → Bytes) (garbage : ℕ → Int32)
  | update (rsh rshArgs hosts : Bytes) (resolve : Bytes → Bytes) (garbage : ℕ → Int32)
  | upLevel (ipAddress : Bytes)
  | downLevel (ipAddress : Bytes)
  | exec (rounds : ℕ) (forked : Bool)

def next (s : RExec) : Op → Option RExec
  | .initializeRExec rsh rshArgs hosts resolve garbage =>
    some (s.initializeRExec rsh rshArgs hosts resolve garbage).2
  | .update rsh rshArgs hosts resolve garbage =>
    some (s.update rsh rshArgs hosts resolve garbage).2
  | .upLevel ipAddress => some (s.upLevel ipAddress)
  | .downLevel ipAddress => some (s.downLevel ipAddress)
  | .exec rounds forked => (s.exec rounds forked).map fun r => r.2.2

def step (s : RExec) (op : Op) (s' : RExec) : Prop := s.next op = some s'

/-! ## What is kept -/

def Separates (minLoadLevel : ℕ) (hosts : List Host) : Prop :=
  (∃ h ∈ hosts, h.loadLevel ≤ minLoadLevel) ∧
    ∀ h ∈ hosts, h.loadLevel ≤ minLoadLevel → ∀ h' ∈ hosts, h.loadLevel ≤ h'.loadLevel

/-- A list of hosts that goes with a position and a load level: every host has a name, no priority
is the marker `-1`, the position is on the list, and the level separates. -/
structure Fits (currentHost : Option ℕ) (minLoadLevel : ℕ) (hosts : List Host) : Prop where
  named : ∀ h ∈ hosts, h.name ≠ []
  priority_ne : ∀ h ∈ hosts, h.priority ≠ -1
  position : currentHost.getD 0 < hosts.length
  separates : Separates minLoadLevel hosts

/-- The condition under which the choice of a host is right: a new list goes with what is kept. -/
def Kept (s : RExec) : Op → Prop
  | .initializeRExec rsh rshArgs hosts resolve garbage =>
    Fits s.currentHost s.minLoadLevel
      (s.initializeRExec rsh rshArgs hosts resolve garbage).2.hosts
  | .update rsh rshArgs hosts resolve garbage =>
    Fits s.currentHost s.minLoadLevel (s.update rsh rshArgs hosts resolve garbage).2.hosts
  | _ => True

/-- **The choice is right**: the search ends and finds a host of the list, with a name, of the
smallest load level, and of the smallest priority among those. -/
def SelectsLeastLoaded (s : RExec) : Prop :=
  ∀ rounds, s.hosts.length ≤ rounds → ∃ idx host s',
    s.findLeastLoadedHost rounds = some (some idx, s') ∧ s.hosts[idx]? = some host ∧
      host.name ≠ [] ∧ (∀ h ∈ s.hosts, host.loadLevel ≤ h.loadLevel) ∧
      ∀ h ∈ s.hosts, h.loadLevel = host.loadLevel → host.priority ≤ h.priority

/-! ## The search -/

section Search

variable {hosts : List Host} {minLoadLevel start : ℕ}

/-- What the search knows after `k` positions: no host was light enough, or `best` is one of them,
with the smallest priority of those seen. -/
def Knows (hosts : List Host) (minLoadLevel start k : ℕ) (best : Best) : Prop :=
  (best = ⟨none, -1⟩ ∧ ∀ j < k, ∀ h, hosts[(start + j) % hosts.length]? = some h →
      minLoadLevel < h.loadLevel) ∨
    ∃ idx host, best = ⟨some idx, host.priority⟩ ∧ hosts[idx]? = some host ∧
      host.loadLevel ≤ minLoadLevel ∧
      ∀ j < k, ∀ h, hosts[(start + j) % hosts.length]? = some h → h.loadLevel ≤ minLoadLevel →
        host.priority ≤ h.priority

/-- **One round of the search.**  The marker is not the priority of a host. -/
theorem Knows.consider (hne : ∀ h ∈ hosts, h.priority ≠ -1) {k : ℕ} {best : Best}
    (hk : k < hosts.length) (h : Knows hosts minLoadLevel start k best) :
    ∃ best', consider hosts minLoadLevel best ((start + k) % hosts.length) = some best' ∧
      Knows hosts minLoadLevel start (k + 1) best' := by
  have hi : (start + k) % hosts.length < hosts.length := Nat.mod_lt _ (Nat.zero_lt_of_lt hk)
  obtain ⟨new, hnw⟩ : ∃ new, hosts[(start + k) % hosts.length]? = some new :=
    ⟨_, getElem?_eq_getElem hi⟩
  refine ⟨_, by rw [RExec.consider, hnw]; rfl, ?_⟩
  beta_reduce
  -- what is true of the first `k` positions and of this one is true of the first `k + 1`
  have hs : ∀ {P : Host → Prop},
      (∀ j < k, ∀ h, hosts[(start + j) % hosts.length]? = some h → P h) → P new →
      ∀ j < k + 1, ∀ h, hosts[(start + j) % hosts.length]? = some h → P h := by
    intro P hold hP j hj h hh
    rcases Nat.lt_succ_iff_lt_or_eq.mp hj with hj | rfl
    · exact hold j hj h hh
    · cases hnw.symm.trans hh
      exact hP
  rcases h with ⟨rfl, hn⟩ | ⟨idx, host, rfl, hho, hli, hls⟩
  · split_ifs with ht
    · refine .inr ⟨_, new, rfl, hnw, ht.1, hs (fun j hj h hh hle => ?_) fun _ => Int32.le_refl _⟩
      exact absurd hle (Nat.not_le.mpr (hn j hj h hh))
    · refine .inl ⟨rfl, hs hn (Nat.not_le.mp fun hle => ht ⟨hle, .inl rfl⟩)⟩
  · have hm : host.priority ≠ -1 := hne host (mem_of_getElem? hho)
    split_ifs with ht
    · have hl : new.priority < host.priority := ht.2.resolve_left hm
      refine .inr ⟨_, new, rfl, hnw, ht.1, hs (fun j hj h hh hle => ?_) fun _ => Int32.le_refl _⟩
      exact Int32.le_trans (Int32.le_of_lt hl) (hls j hj h hh hle)
    · refine .inr ⟨idx, host, rfl, hho, hli, hs hls fun hle => ?_⟩
      exact Int32.not_lt.mp fun hl => ht ⟨hle, .inr hl⟩

/-- **The search finds the right host** if the list goes with what is kept. -/
theorem Fits.selectsLeastLoaded {s : RExec} (h : Fits s.currentHost s.minLoadLevel s.hosts) :
    s.SelectsLeastLoaded := by
  intro rounds hr
  have hn : s.hosts ≠ [] := fun hni => by
    have hlt := h.position
    rw [hni] at hlt
    exact absurd hlt (Nat.not_lt_zero _)
  have hf : Knows s.hosts s.minLoadLevel (s.currentHost.getD 0) 0 ⟨none, -1⟩ :=
    .inl ⟨rfl, fun j hj => absurd hj (Nat.not_lt_zero j)⟩
  obtain ⟨best, hsc, hb⟩ := ringScan_of_invariant h.position
    (fun k best hk hkn => hkn.consider h.priority_ne hk) hf hr
  -- every host of the list was looked at
  have ha : ∀ {P : Host → Prop}, (∀ j < s.hosts.length, ∀ host,
      s.hosts[(s.currentHost.getD 0 + j) % s.hosts.length]? = some host → P host) →
      ∀ host ∈ s.hosts, P host := by
    intro P hP host hmem
    obtain ⟨i, hi, rfl⟩ := getElem_of_mem hmem
    obtain ⟨j, hj, hij⟩ := exists_add_mod_eq h.position hi
    exact hP j hj _ (by rw [hij]; exact getElem?_eq_getElem hi)
  obtain ⟨⟨light, hl, hli⟩, hs⟩ := h.separates
  rcases hb with ⟨_, hno⟩ | ⟨idx, host, rfl, hh, hle, hls⟩
  · exact absurd (ha hno light hl) (Nat.not_lt.mpr hli)
  · have hmem := mem_of_getElem? hh
    refine ⟨idx, host, { s with currentHost := some ((idx + 1) % s.hosts.length) }, ?_, hh,
      h.named host hmem, hs host hmem hle, fun h' hh' heq => ?_⟩
    · simp [findLeastLoadedHost, if_neg hn, hsc]
    · exact ha hls h' hh' (heq.le.trans hle)

end Search

lemma foldl_least (hosts : List Host) (least : ℕ) :
    let result :=
      hosts.foldl (fun least h => if h.loadLevel < least then h.loadLevel else least) least
    result ≤ least ∧ (∀ h ∈ hosts, result ≤ h.loadLevel) ∧
      (result = least ∨ ∃ h ∈ hosts, h.loadLevel = result) := by
  induction hosts generalizing least with
  | nil => exact ⟨le_rfl, nofun, .inl rfl⟩
  | cons host hosts ih =>
    obtain ⟨hle, ha, hs⟩ := ih (if host.loadLevel < least then host.loadLevel else least)
    have hm : (if host.loadLevel < least then host.loadLevel else least) =
        min host.loadLevel least := by
      split_ifs <;> omega
    simp only [foldl_cons]
    refine ⟨hle.trans (hm ▸ min_le_right _ _), ?_, ?_⟩
    · exact forall_mem_cons.mpr ⟨hle.trans (hm ▸ min_le_left _ _), ha⟩
    · rcases hs with heq | ⟨h, hmem, heq⟩
      · by_cases hl : host.loadLevel < least
        · exact .inr ⟨host, .head _, by rw [heq, if_pos hl]⟩
        · exact .inl (by rw [heq, if_neg hl])
      · exact .inr ⟨h, .tail host hmem, heq⟩

lemma separates_recomputeMinLoadLevel {s : RExec} (hne : s.hosts ≠ []) :
    Separates s.recomputeMinLoadLevel.minLoadLevel s.hosts := by
  obtain ⟨host, hosts, hc⟩ := exists_cons_of_ne_nil hne
  obtain ⟨hle, ha, hs⟩ := foldl_least hosts host.loadLevel
  simp only [recomputeMinLoadLevel, hc]
  constructor
  · rcases hs with heq | ⟨h, hmem, heq⟩
    · exact ⟨host, .head _, heq.ge⟩
    · exact ⟨h, .tail host hmem, heq.le⟩
  · intro h _ hl h' hh'
    refine hl.trans ?_
    rcases mem_cons.mp hh' with rfl | hh'
    · exact hle
    · exact ha h' hh'

@[simp] lemma recomputeMinLoadLevel_hosts (s : RExec) :
    s.recomputeMinLoadLevel.hosts = s.hosts := by
  unfold recomputeMinLoadLevel
  split <;> rfl

@[simp] lemma recomputeMinLoadLevel_currentHost (s : RExec) :
    s.recomputeMinLoadLevel.currentHost = s.currentHost := by
  unfold recomputeMinLoadLevel
  split <;> rfl

def Ready (s : RExec) : Prop := s.hosts = [] ∨ Fits s.currentHost s.minLoadLevel s.hosts

variable {s s' : RExec}

lemma mem_modify_loadLevel {hosts : List Host} {idx : ℕ} {change : ℕ → ℕ} {h : Host}
    (hmem : h ∈ hosts.modify idx fun h => { h with loadLevel := change h.loadLevel }) :
    ∃ old ∈ hosts, h.name = old.name ∧ h.priority = old.priority := by
  obtain ⟨i, hi, rfl⟩ := getElem_of_mem hmem
  have hold : i < hosts.length := by rwa [length_modify] at hi
  refine ⟨hosts[i], getElem_mem hold, ?_⟩
  rw [getElem_modify]
  split_ifs <;> exact ⟨rfl, rfl⟩

lemma Ready.changeLevel (h : s.Ready) (ipAddress : Bytes) (change : ℕ → ℕ) :
    (s.changeLevel ipAddress change).Ready := by
  unfold RExec.changeLevel
  split
  · exact h
  · next idx hfo =>
      have hne : s.hosts ≠ [] := by
        intro hni
        simp [findByIP, hni] at hfo
      have hf := h.resolve_left hne
      have hc : s.hosts.modify idx (fun h => { h with loadLevel := change h.loadLevel }) ≠ [] := by
        intro hni
        have hl := congrArg length hni
        rw [length_modify] at hl
        exact hne (length_eq_zero_iff.mp hl)
      refine .inr ⟨?_, ?_, ?_, ?_⟩
      · intro h hmem
        rw [recomputeMinLoadLevel_hosts] at hmem
        obtain ⟨old, hold, hn, -⟩ := mem_modify_loadLevel hmem
        exact hn ▸ hf.named old hold
      · intro h hmem
        rw [recomputeMinLoadLevel_hosts] at hmem
        obtain ⟨old, hold, -, hp⟩ := mem_modify_loadLevel hmem
        exact hp ▸ hf.priority_ne old hold
      · rw [recomputeMinLoadLevel_hosts, recomputeMinLoadLevel_currentHost, length_modify]
        exact hf.position
      · rw [recomputeMinLoadLevel_hosts]
        exact separates_recomputeMinLoadLevel hc

lemma Ready.findLeastLoadedHost (h : s.Ready) {rounds : ℕ} {result : Option ℕ}
    (hf : s.findLeastLoadedHost rounds = some (result, s')) : s'.Ready := by
  rcases h with hn | hfi
  · rw [RExec.findLeastLoadedHost, if_pos hn] at hf
    cases hf
    exact .inl hn
  · have hpos : 0 < s.hosts.length := Nat.zero_lt_of_lt hfi.position
    have hne : s.hosts ≠ [] := ne_nil_of_length_pos hpos
    simp only [RExec.findLeastLoadedHost, if_neg hne, Option.map_eq_some_iff] at hf
    obtain ⟨best, -, he⟩ := hf
    split at he
    · cases he
      exact .inr { hfi with position := Nat.mod_lt _ hpos }
    · cases he
      exact .inr { hfi with position := hfi.position }

/-- **One call keeps the object ready.** -/
theorem Ready.step (h : s.Ready) {op : Op} (hk : s.Kept op) (hs : s.step op s') : s'.Ready := by
  cases op with
  | initializeRExec rsh rshArgs hosts resolve garbage =>
    cases hs
    exact .inr hk
  | update rsh rshArgs hosts resolve garbage =>
    cases hs
    refine .inr ?_
    have hsa : (s.update rsh rshArgs hosts resolve garbage).2.currentHost = s.currentHost ∧
        (s.update rsh rshArgs hosts resolve garbage).2.minLoadLevel = s.minLoadLevel := by
      simp only [update]
      split_ifs <;> exact ⟨rfl, rfl⟩
    rw [hsa.1, hsa.2]
    exact hk
  | upLevel ipAddress | downLevel ipAddress =>
    cases hs
    exact h.changeLevel ipAddress _
  | exec rounds forked =>
    simp only [RExec.step, next, exec, Option.map_map, Option.map_eq_some_iff] at hs
    obtain ⟨⟨host, s1⟩, hf, rfl⟩ := hs
    exact h.findLeastLoadedHost hf

/-- **Host selection.**  In every run whose new lists of hosts fit the position and the load level
that are kept, the choice is right. -/
theorem leastLoaded_of_run {ops : List Op} (h : Run (Guarded Kept RExec.step) new ops s)
    (hhosts : s.hosts ≠ []) : s.SelectsLeastLoaded := by
  have hr : s.Ready := h.invariant (fun _ _ _ hs hst => hs.step hst.1 hst.2) (.inl rfl)
  exact (hr.resolve_left hhosts).selectsLeastLoaded

/-- Hosts `a*1` and `b`; one process more on `b`, then `c` is added with nothing to do. -/
theorem leastLoaded_of_run_sample : ∃ s ops, Run (Guarded Kept RExec.step) new ops s ∧
    s.hosts.map Host.loadLevel = [0, 1, 0] ∧ s.SelectsLeastLoaded := by
  have hf : Fits none 0 (new.initializeRExec [] [] [97, 42, 49, 44, 98] id fun _ => 7).2.hosts :=
    ⟨by decide +kernel, by decide +kernel, by decide +kernel, by unfold Separates; decide +kernel⟩
  let s₁ := (new.initializeRExec [] [] [97, 42, 49, 44, 98] id fun _ => 7).2.upLevel [98]
  have hs : Fits s₁.currentHost s₁.minLoadLevel
      (s₁.update [] [] [97, 42, 49, 44, 98, 44, 32, 99] id fun _ => 7).2.hosts :=
    ⟨by decide +kernel, by decide +kernel, by decide +kernel, by unfold Separates; decide +kernel⟩
  have hrun : Run (Guarded Kept RExec.step) new
      [.initializeRExec [] [] [97, 42, 49, 44, 98] id fun _ => 7, .upLevel [98],
        .update [] [] [97, 42, 49, 44, 98, 44, 32, 99] id fun _ => 7]
      (s₁.update [] [] [97, 42, 49, 44, 98, 44, 32, 99] id fun _ => 7).2 :=
    .cons ⟨hf, rfl⟩ (.cons ⟨trivial, rfl⟩ (.cons ⟨hs, rfl⟩ (.nil _)))
  exact ⟨_, _, hrun, by decide +kernel, leastLoaded_of_run hrun (by decide +kernel)⟩

/-- What an object finds after some calls: the load level and the priority of the host. -/
def choice (rounds : ℕ) (s : RExec) : Option (Option (ℕ × Int32)) :=
  (s.findLeastLoadedHost rounds).map fun r =>
    (r.1.bind fun idx => s.hosts[idx]?).map fun host => (host.loadLevel, host.priority)

/-- After a list was shortened the search reads outside it.  After a host was taken off that had the
smallest load, the search finds nothing; after one was added, it passes the idle host by.  A host of
priority `-1` loses against one of priority `5`.  And the nameless host behind a trailing comma is
chosen once the other is busy. -/
theorem update_misleads :
    (∃ s, Run RExec.step new [.initializeRExec [] [] [97, 44, 98] id fun _ => 0, .exec 2 true,
        .update [] [] [97] id fun _ => 0] s ∧ ∀ rounds, s.findLeastLoadedHost rounds = none) ∧
    (∃ s, Run RExec.step new [.initializeRExec [] [] [97, 44, 98] id fun _ => 0, .upLevel [97],
        .update [] [] [97] id fun _ => 0] s ∧ s.choice 1 = some none) ∧
    (∃ s, Run RExec.step new [.initializeRExec [] [] [97] id fun _ => 0, .upLevel [97],
        .update [] [] [97, 44, 98] id fun _ => 0] s ∧ s.choice 2 = some (some (1, 0)) ∧
        s.hosts.map Host.loadLevel = [1, 0]) ∧
    (∃ s, Run RExec.step new
        [.initializeRExec [] [] [97, 42, 45, 49, 44, 98, 42, 53] id fun _ => 0] s ∧
      s.choice 2 = some (some (0, 5)) ∧ s.hosts.map Host.priority = [-1, 5]) ∧
    ∃ s, Run RExec.step new [.initializeRExec [] [] [97, 44] id fun _ => 0, .upLevel [97]] s ∧
      (s.findLeastLoadedHost 2).map Prod.fst = some (some 1) ∧
      s.hosts.map Host.name = [[97], []] := by
  refine ⟨⟨_, .cons rfl (.cons rfl (.cons rfl (.nil _))), fun rounds => ?_⟩,
    ⟨_, .cons rfl (.cons rfl (.cons rfl (.nil _))), by decide +kernel⟩,
    ⟨_, .cons rfl (.cons rfl (.cons rfl (.nil _))), by decide +kernel⟩,
    ⟨_, .cons rfl (.nil _), by decide +kernel⟩,
    ⟨_, .cons rfl (.cons rfl (.nil _)), by decide +kernel⟩⟩
  cases rounds <;> rfl

end RExec

end Glomop.Share
