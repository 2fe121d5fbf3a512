import Glomop.Ptm.Waiting
import Glomop.Ptm.Lifetime

/-!
# Waking a sleeping distiller

`WakeSleepingDistiller` looks for a sleeping distiller of a type and tells it to wake up.  Where its
connection is broken its record goes, which may set off a search of its own, and the search is made
again.  `search` is what this is meant to do; it always returns (`searchLoop_returns`).  The code
differs in one point: a search that finds nobody leaves `finder.dist` as it was.  The two agree
exactly when every failed wake-up leaves another distiller to turn to (`Relieved`).
-/

namespace Glomop.Ptm

open Lib Prog Heap
open List hiding get modify

/-- The first registered distiller that sleeps and can satisfy a type. -/
def State.sleeper (s : State) (type : DistillerType) : Option ℕ :=
  s.distillerDB.find? fun d =>
    (s.distillers.cell d).any fun r => canSatisfy r.type type && r.sleepStatus = distSleep

/-- The objects of a PTM hold together: registered distillers have records, distillers and
connections point to each other, and pointers to launch records are good. -/
structure Sound (s : State) : Prop where
  nodup : s.distillerDB.Nodup
  live : ∀ d ∈ s.distillerDB, s.distillers.Live d
  linked : Linked s.connections s.distillers
  listed : s.pendingLaunches.ListedIn s.pendingList
  owns : s.Owns

/-- What a search for a distiller of a type should return: one that is registered, satisfies the
type and is awake; or nobody, when no registered distiller that satisfies the type is left
asleep. -/
def Answers (type : DistillerType) (s' : State) : Option ℕ → Prop
  | none => s'.sleeper type = none
  | some d => d ∈ s'.distillerDB ∧ ∃ r, s'.distillers.cell d = some r ∧
      canSatisfy r.type type = true ∧ r.isAwake = true

/-- The search returns, after at most one round for each registered distiller and one more, and
returns what it should. -/
def Behaves (type : DistillerType) (s : State) : Prop :=
  ∃ found s', (∀ rounds, s.distillerDB.length < rounds →
    wakeSleepingDistiller rounds type s = some (found, s')) ∧ Answers type s' found

/-! ## The search as it is meant -/

def searchLoop : ℕ → DistillerType → M (Option ℕ)
  | 0, _ => Prog.fault
  | rounds + 1, type => do
    let s ← get
    match s.sleeper type with
    | none => return none
    | some d =>
      if ← wakeUp (searchLoop rounds) d then return some d
      else
        setStatus .success
        searchLoop rounds type

def search (type : DistillerType) : M (Option ℕ) := do
  let s ← get
  searchLoop (s.distillerDB.length + 1) type

namespace State

/-- The state after a packet was written, or could not be. -/
def written (s : State) : State :=
  { s with
    outcomes := s.outcomes.tail
    status :=
      match s.outcomes.headD .ok with
      | .ok => s.status
      | .eof => .errSocketEOF
      | .fail => .errSocketWriteError }

def bereft (s : State) (d : ℕ) : State := s.written.removeDistiller d

def restartType (s : State) (d : ℕ) : Option DistillerType := do
  let r ← s.distillers.cell d
  let l ← r.launchRecord
  let record ← s.launchRecords.cell l
  if r.mustRestartOnDeath = 1 then some record.type else none

def cleared (s : State) : State := { s with status := .success }

end State

/-- Whenever a distiller cannot be told to wake up, in the search for a type or in one that the
death of a distiller sets off, there is another one to turn to. -/
inductive Relieved : DistillerType → State → Prop
  | nobody (type : DistillerType) (s : State) : s.sleeper type = none → Relieved type s
  | told (type : DistillerType) (s : State) (d : ℕ) :
      s.sleeper type = some d → s.outcomes.headD .ok = .ok → Relieved type s
  | another (type : DistillerType) (s s₁ : State) (d d' : ℕ) :
      s.sleeper type = some d → s.outcomes.headD .ok ≠ .ok →
      (∀ restart, s.restartType d = some restart → Relieved restart (s.bereft d)) →
      wakeUp search d s = some (false, s₁) → s₁.sleeper type = some d' →
      Relieved type s₁.cleared → Relieved type s

/-! ## States that hold together -/

variable {d l rounds : ℕ} {r : DistillerRecord} {s : State} {type : DistillerType}

lemma sleeper_spec (h : s.sleeper type = some d) :
    d ∈ s.distillerDB ∧ ∃ r, s.distillers.cell d = some r ∧ canSatisfy r.type type = true ∧
      r.sleepStatus ≠ distWakeUp := by
  refine ⟨mem_of_find?_eq_some h, ?_⟩
  have hd := find?_some h
  rw [Option.any_eq_true] at hd
  obtain ⟨r, hr, hs⟩ := hd
  rw [Bool.and_eq_true, decide_eq_true_eq] at hs
  refine ⟨r, hr, hs.1, ?_⟩
  rw [hs.2]
  decide

namespace Sound

variable {s s' : State}

lemma findFirst (hs : Sound s) (type : DistillerType) :
    s.distillers.findFirst (fun r => canSatisfy r.type type && r.sleepStatus = distSleep)
      s.distillerDB = some (s.sleeper type) :=
  findFirst_of_live hs.live

lemma woken (hs : Sound s) (h : Woken s s') : Sound s' where
  nodup := h.nodup hs.nodup
  live := h.invariant (I := fun s => ∀ d ∈ s.distillerDB, s.distillers.Live d) Waking.live_of_mem
    hs.live
  linked := h.linked hs.linked
  listed := (h.owns ⟨hs.listed, hs.owns⟩).1
  owns := (h.owns ⟨hs.listed, hs.owns⟩).2

lemma cleared (hs : Sound s) : Sound s.cleared := ⟨hs.nodup, hs.live, hs.linked, hs.listed, hs.owns⟩

lemma bereft (hs : Sound s) (d : ℕ) : Sound (s.bereft d) where
  nodup := hs.nodup.erase d
  live d' hd' := hs.live d' (mem_of_mem_erase hd')
  linked := hs.linked
  listed := hs.listed
  owns := hs.owns

lemma launchRecord (hs : Sound s) (hr : s.distillers.cell d = some r)
    (hl : r.launchRecord = some l) : ∃ record, s.launchRecords.cell l = some record :=
  live_iff.mp (hs.owns.catalog.live (hs.owns.bound d r hr l hl))

end Sound

/-! ## Launching returns -/

lemma derefLaunch_run {record : LaunchRecord} (h : s.launchRecords.cell l = some record) :
    derefLaunch l s = some (record, s) := by
  simp [derefLaunch, h]

lemma derefDistiller_run (h : s.distillers.cell d = some r) : derefDistiller d s = some (r, s) := by
  simp [derefDistiller, h]

lemma derefConnection_run {c : ℕ} {connection : Connection}
    (h : s.connections.cell c = some connection) : derefConnection c s = some (connection, s) := by
  simp [derefConnection, h]

lemma derefPending_run {p : ℕ} {pending : PendingLaunch}
    (h : s.pendingLaunches.cell p = some pending) : derefPending p s = some (pending, s) := by
  simp [derefPending, h]

lemma nextOutcome_run (s : State) :
    nextOutcome s = some (s.outcomes.headD .ok, { s with outcomes := s.outcomes.tail }) := rfl

lemma write_run {c : ℕ} {connection : Connection} (h : s.connections.cell c = some connection) :
    write c s = some (decide (s.outcomes.headD .ok = .ok), s.written) := by
  rw [write, bind_run (derefConnection_run h), bind_run (nextOutcome_run s), State.written]
  cases s.outcomes.headD .ok <;> rfl

lemma halts_append {p : ℕ} (h : s.pendingLaunches.Live p) (request : Option Asker) :
    Halts (append p request) s := by
  obtain ⟨pending, hp⟩ := live_iff.mp h
  exact .bind (derefPending_run hp) (.bind rfl (.of_eq rfl))

lemma exists_launch (h : s.launchRecords.Live l) :
    ∃ b s', launch l s = some (b, s') ∧ s'.pendingLaunches = s.pendingLaunches ∧
      s'.launchRecords.Live l := by
  obtain ⟨record, hr⟩ := live_iff.mp h
  have hl : (s.launchRecords.set l { record with lastLaunch := s.now }).Live l := set_live.mpr h
  let s₁ := s.setLaunch l { record with lastLaunch := s.now }
  have hs : (modify (·.setLaunch l { record with lastLaunch := s.now }) : M PUnit) s =
      some ((), s₁) := rfl
  rw [launch, bind_run (derefLaunch_run hr), get_bind_run, bind_run hs,
    bind_run (nextOutcome_run s₁)]
  cases s₁.outcomes.headD .ok with
  | ok => exact ⟨true, _, rfl, rfl, hl⟩
  | eof | fail => exact ⟨false, _, rfl, rfl, hl⟩

lemma halts_initiateLaunch (hs : Sound s) (hl : l ∈ s.launchDB) :
    Halts (initiateLaunch l none) s := by
  let p := s.pendingLaunches.next
  let pending : PendingLaunch := ⟨l, s.nextID, 0, []⟩
  let waited : PendingLaunch := ⟨l, s.nextID, 0, [none]⟩
  have hn : (s.newPending l).pendingLaunches.cell p = some pending := alloc_cell_next
  have ha : append p none (s.newPending l) = some (true, (s.newPending l).setPending p waited) := by
    rw [append, bind_run (derefPending_run hn)]
    rfl
  obtain ⟨started, s₁, hla, hpe, hli⟩ :=
    exists_launch (s := (s.newPending l).setPending p waited) (hs.owns.catalog.live hl)
  have hp : s₁.pendingLaunches.cell p = some waited := by
    rw [hpe]
    exact set_cell_self hn
  refine .bind rfl (.bind rfl (.bind ha (.bind hla ?_)))
  cases started with
  | true => exact .of_eq rfl
  | false =>
    have hf : launchFailed p s₁ = some ((), s₁) := by
      rw [launchFailed, bind_run (derefPending_run hp)]
      rfl
    refine .bind hf ?_
    obtain ⟨record, hr⟩ := live_iff.mp hli
    have hd : Halts (deletePendingLaunch p) s₁ := by
      refine .bind (derefPending_run hp) (.bind (derefLaunch_run hr) ?_)
      split_ifs
      all_goals exact .of_eq rfl
    obtain ⟨_, s2, hd⟩ := hd
    exact .bind hd (.of_eq rfl)

lemma halts_tryToLaunch (hs : Sound s) (type : DistillerType) :
    Halts (tryToLaunch type none) s := by
  have hf : findMatchingLaunch type s =
      some (s.launchDB.find? fun l => (s.launchRecords.cell l).any fun r => canSatisfy r.type type,
        s) := by
    rw [findMatchingLaunch, get_bind_run, findFirst_of_live fun l hl => hs.owns.catalog.live hl]
    rfl
  refine .bind hf ?_
  cases hl : s.launchDB.find? fun l =>
      (s.launchRecords.cell l).any fun r => canSatisfy r.type type with
  | none => exact .of_eq rfl
  | some l =>
    have hpe : findPendingLaunch l s = some (s.pendingList.find? fun p =>
        (s.pendingLaunches.cell p).any fun pending => pending.launchRecord = l, s) := by
      rw [findPendingLaunch, get_bind_run,
        findFirst_of_live fun p hp => (hs.listed.mem_iff p).mp hp]
      rfl
    refine .bind hpe ?_
    cases hp : s.pendingList.find? fun p =>
        (s.pendingLaunches.cell p).any fun pending => pending.launchRecord = l with
    | none => exact halts_initiateLaunch hs (mem_of_find?_eq_some hl)
    | some p => exact halts_append ((hs.listed.mem_iff p).mp (mem_of_find?_eq_some hp)) none

/-! ## Telling one distiller -/

structure Searched (s s' : State) : Prop where
  woken : Woken s s'
  spared : ∀ d, d ∉ s.distillerDB → s'.distillers.cell d = s.distillers.cell d

namespace Searched

variable {s s₁ s' : State}

lemma refl (s : State) : Searched s s := ⟨(Env.refl s).launches.woken, fun _ _ => rfl⟩

lemma subset (h : Searched s s') : s'.distillerDB ⊆ s.distillerDB :=
  (WakeChain.frame h.woken.chain).2.subset

lemma trans (h1 : Searched s s₁) (h2 : Searched s₁ s') : Searched s s' where
  woken := h1.woken.trans h2.woken
  spared d hd := (h2.spared d fun hmem => hd (h1.subset hmem)).trans (h1.spared d hd)

lemma cleared (h : Searched s s') : Searched s s'.cleared where
  woken := h.woken.trans (Env.mk .success s'.outcomes s'.quit).launches.woken
  spared := h.spared

end Searched

def Finds (wake : DistillerType → M (Option ℕ)) (type : DistillerType) (s : State) : Prop :=
  ∃ found s', wake type s = some (found, s') ∧ Searched s s' ∧
    ∀ d, found = some d → s'.distillers.Live d

def bury (c d : ℕ) : M Bool := do
  deleteDistillerRecord d
  let _ ← derefConnection c
  modify (·.setRecord c none)
  modify (·.closeConnection c)
  setStatus .errSocketWriteError
  return false

section

variable {wake wake' : DistillerType → M (Option ℕ)} {s : State} {d : ℕ} {r : DistillerRecord}

lemma restartType_of_cell {record : LaunchRecord} (hr : s.distillers.cell d = some r)
    (hl : r.launchRecord = some l) (hrc : s.launchRecords.cell l = some record)
    (hre : r.mustRestartOnDeath = 1) : s.restartType d = some record.type := by
  simp [State.restartType, hr, hl, hrc, hre]

lemma halts_of_evUnnaturalDeath (hr : s.distillers.cell d = some r)
    (h : Halts (evUnnaturalDeath wake d) s) {restart : DistillerType}
    (hre : s.restartType d = some restart) : Halts (wake restart) s := by
  obtain ⟨_, s', h⟩ := h
  simp only [State.restartType, hr, Option.bind_eq_bind, Option.bind_some,
    Option.bind_eq_some_iff] at hre
  obtain ⟨l, hl, record, hrc, hre⟩ := hre
  split_ifs at hre with hm
  cases hre
  rw [evUnnaturalDeath, bind_run (derefDistiller_run hr), hl] at h
  dsimp only at h
  rw [if_pos hm, relaunch, bind_run (derefLaunch_run hrc), bind_eq_some] at h
  obtain ⟨found, s₁, hf, _⟩ := h
  exact ⟨found, s₁, hf⟩

section

variable (hs : Sound s) (hr : s.distillers.cell d = some r)

include hs hr

lemma evUnnaturalDeath_congr
    (h : ∀ restart, s.restartType d = some restart → wake restart s = wake' restart s) :
    evUnnaturalDeath wake d s = evUnnaturalDeath wake' d s := by
  rw [evUnnaturalDeath, evUnnaturalDeath, bind_run (derefDistiller_run hr),
    bind_run (derefDistiller_run hr)]
  cases hl : r.launchRecord with
  | none => rfl
  | some l =>
    dsimp only
    split_ifs with hrs
    · obtain ⟨record, hre⟩ := hs.launchRecord hr hl
      rw [relaunch, relaunch, bind_run (derefLaunch_run hre), bind_run (derefLaunch_run hre)]
      exact bind_congr_at (h _ (restartType_of_cell hr hl hre hrs)) _
    · rfl

lemma exists_evUnnaturalDeath (hd : d ∉ s.distillerDB)
    (h : ∀ restart, s.restartType d = some restart → Finds wake restart s) :
    ∃ s', evUnnaturalDeath wake d s = some ((), s') ∧ Searched s s' := by
  rw [evUnnaturalDeath, bind_run (derefDistiller_run hr)]
  cases hl : r.launchRecord with
  | none => exact ⟨s, rfl, .refl s⟩
  | some l =>
    dsimp only
    split_ifs with hrs
    · obtain ⟨record, hre⟩ := hs.launchRecord hr hl
      obtain ⟨found, s₁, hf, hse, hli⟩ := h _ (restartType_of_cell hr hl hre hrs)
      have hs1 := hs.woken hse.woken
      -- the dead distiller still keeps its launch record alive
      obtain ⟨record₁, hr1⟩ := hs1.launchRecord ((hse.spared d hd).trans hr) hl
      rw [relaunch, bind_run (derefLaunch_run hre), bind_run hf]
      cases found with
      | some d' =>
        obtain ⟨r', hr'⟩ := live_iff.mp (hli d' rfl)
        refine ⟨s₁.setLaunch l { record₁ with lastLaunch := s₁.now }, ?_, ?_⟩
        · dsimp only
          rw [bind_run (derefDistiller_run hr'), bind_run (derefLaunch_run hr1), get_bind_run]
          rfl
        · have ht : Launches s₁ _ := .single (.touch l record₁ hr1)
          exact hse.trans ⟨ht.woken, fun _ _ => rfl⟩
      | none =>
        obtain ⟨b, s2, hln⟩ := halts_tryToLaunch hs1 record₁.type
        have hla := within_tryToLaunch record₁.type hln
        obtain ⟨_, hdi, _⟩ := hla.frame
        refine ⟨s2, ?_, hse.trans ⟨hla.woken, fun d _ => by rw [hdi]⟩⟩
        dsimp only
        rw [bind_run (derefLaunch_run hr1), bind_run hln]
        rfl
    · exact ⟨s, rfl, .refl s⟩

lemma exists_bury :
    ∃ s', bury r.privateConnection d s = some (false, s') ∧
      s'.distillers = s.distillers.free d ∧ s'.distillerDB = s.distillerDB := by
  have hd : Halts (deleteDistillerRecord d) s := by
    refine .bind (derefDistiller_run hr) ?_
    cases hl : r.launchRecord with
    | none => exact .of_eq rfl
    | some l =>
      obtain ⟨record, hre⟩ := hs.launchRecord hr hl
      dsimp only
      split_ifs
      · exact .bind (bind_run (derefLaunch_run hre) _) (.of_eq rfl)
      · exact .of_eq rfl
  obtain ⟨_, s₁, hd⟩ := hd
  obtain ⟨r', hr', rfl⟩ := deleteDistillerRecord_spec hd
  have hc : (s.destroyDistiller d r').connections.cell r.privateConnection = some ⟨some d⟩ :=
    hs.linked d r hr
  rw [bury, bind_run hd, bind_run (derefConnection_run hc)]
  exact ⟨_, rfl, rfl, rfl⟩

lemma wakeUp_told (ha : r.sleepStatus ≠ distWakeUp) (hok : s.outcomes.headD .ok = .ok) :
    ∃ s', wakeUp wake d s = some (true, s') ∧ s'.distillerDB = s.distillerDB ∧
      s'.distillers = s.distillers.set d r.awaken := by
  have hw := write_run (hs.linked d r hr)
  rw [hok, decide_eq_true rfl] at hw
  rw [wakeUp, bind_run (derefDistiller_run hr), if_neg ha, bind_run hw, if_pos rfl]
  cases hl : r.launchRecord with
  | none => exact ⟨_, rfl, rfl, rfl⟩
  | some l =>
    obtain ⟨record, hre⟩ := hs.launchRecord hr hl
    let s₁ := s.written.setDistiller d r.awaken
    have hse : (modify (·.setDistiller d r.awaken) : M PUnit) s.written = some ((), s₁) := rfl
    have hc : evRegisterDistiller l s₁ = some ((), s₁.setLaunch l record.countIn) := by
      have hr1 : s₁.launchRecords.cell l = some record := hre
      rw [evRegisterDistiller, bind_run (derefLaunch_run hr1)]
      rfl
    dsimp only
    rw [bind_run hse, bind_run hc]
    exact ⟨_, rfl, rfl, rfl⟩

lemma wakeUp_untold (ha : r.sleepStatus ≠ distWakeUp) (hf : s.outcomes.headD .ok ≠ .ok) :
    wakeUp wake d s =
      (evUnnaturalDeath wake d >>= fun _ => bury r.privateConnection d) (s.bereft d) := by
  have hw := write_run (hs.linked d r hr)
  rw [decide_eq_false hf] at hw
  have hc : s.written.connections.cell r.privateConnection = some ⟨some d⟩ := hs.linked d r hr
  have hr' : s.written.distillers.cell d = some r := hr
  rw [wakeUp, bind_run (derefDistiller_run hr), if_neg ha, bind_run hw]
  simp only [Bool.false_eq_true, if_false, evConnectionBroken, bind_assoc]
  rw [bind_run (derefConnection_run hc)]
  simp only [dropDistiller, deregister, bury, bind_assoc, pure_bind]
  rw [bind_run (derefDistiller_run hr')]
  rfl

lemma wakeUp_congr (ha : r.sleepStatus ≠ distWakeUp)
    (h : s.outcomes.headD .ok ≠ .ok → ∀ restart, s.restartType d = some restart →
      wake restart (s.bereft d) = wake' restart (s.bereft d)) :
    wakeUp wake d s = wakeUp wake' d s := by
  by_cases hok : s.outcomes.headD .ok = .ok
  · have hw := write_run (hs.linked d r hr)
    rw [hok, decide_eq_true rfl] at hw
    rw [wakeUp, wakeUp, bind_run (derefDistiller_run hr), bind_run (derefDistiller_run hr),
      if_neg ha, if_neg ha, bind_run hw, bind_run hw, if_pos rfl, if_pos rfl]
  · rw [wakeUp_untold hs hr ha hok, wakeUp_untold hs hr ha hok]
    exact bind_congr_at (evUnnaturalDeath_congr (hs.bereft d) hr (h hok)) _

end

/-- **A sleeper that cannot be told is gone afterwards**, and with it a registered distiller. -/
theorem exists_wakeUp_untold (hwa : ∀ type, Within Wakes (wake type)) (hs : Sound s)
    (hd : d ∈ s.distillerDB) (hr : s.distillers.cell d = some r)
    (ha : r.sleepStatus ≠ distWakeUp) (hf : s.outcomes.headD .ok ≠ .ok)
    (h : ∀ restart, s.restartType d = some restart → Finds wake restart (s.bereft d)) :
    ∃ s', wakeUp wake d s = some (false, s') ∧ Searched s s' ∧ s'.distillers.cell d = none ∧
      s'.distillerDB.length < s.distillerDB.length := by
  have hg : d ∉ (s.bereft d).distillerDB := hs.nodup.not_mem_erase
  obtain ⟨s₁, hde, hse⟩ := exists_evUnnaturalDeath (hs.bereft d) hr hg h
  have hr1 : s₁.distillers.cell d = some r := (hse.spared d hg).trans hr
  obtain ⟨s', hb, hdi, hdb⟩ := exists_bury ((hs.bereft d).woken hse.woken) hr1
  have hw : wakeUp wake d s = some (false, s') := by
    rw [wakeUp_untold hs hr ha hf, bind_run hde, hb]
  refine ⟨s', hw, ⟨within_wakeUp hwa d hw hs.nodup, ?_⟩, ?_, ?_⟩
  · intro d' hd'
    have hne : d' ≠ d := by
      rintro rfl
      exact hd' hd
    rw [hdi, free_cell_of_ne hne]
    exact hse.spared d' fun hmem => hd' (mem_of_mem_erase hmem)
  · rw [hdi, free_cell_self]
  · have hsu : s'.distillerDB.Sublist (s.distillerDB.erase d) := by
      rw [hdb]
      exact (WakeChain.frame hse.woken.chain).2
    have hl := hsu.length_le
    have he := length_erase_of_mem hd
    have hpos := length_pos_of_mem hd
    omega

end

/-! ## The search as it is meant returns -/

lemma within_searchLoop (rounds : ℕ) (type : DistillerType) :
    Within Wakes (searchLoop rounds type) := by
  induction rounds generalizing type with
  | zero => exact .fault
  | succ rounds ih =>
    refine .bind .get fun s => ?_
    cases s.sleeper type with
    | none => exact .pure none
    | some d =>
      refine .bind (within_wakeUp ih d) fun told => ?_
      cases told with
      | true => exact .pure (some d)
      | false =>
        refine .bind ?_ fun _ => ih type
        exact (within_setStatus _).mono fun _ _ henv => henv.wakes

section

variable {s s₁ : State} {type : DistillerType} {d rounds : ℕ}

lemma searchLoop_nobody (h : s.sleeper type = none) :
    searchLoop (rounds + 1) type s = some (none, s) := by
  rw [searchLoop, get_bind_run, h]
  rfl

lemma searchLoop_told (h : s.sleeper type = some d)
    (hw : wakeUp (searchLoop rounds) d s = some (true, s₁)) :
    searchLoop (rounds + 1) type s = some (some d, s₁) := by
  rw [searchLoop, get_bind_run, h]
  exact bind_run hw _

lemma searchLoop_untold (h : s.sleeper type = some d)
    (hw : wakeUp (searchLoop rounds) d s = some (false, s₁)) :
    searchLoop (rounds + 1) type s = searchLoop rounds type s₁.cleared := by
  rw [searchLoop, get_bind_run, h]
  exact bind_run hw _

end

lemma length_bereft (hd : d ∈ s.distillerDB) (hr : s.distillerDB.length < rounds + 1) :
    (s.bereft d).distillerDB.length < rounds := by
  have he : (s.bereft d).distillerDB.length = s.distillerDB.length - 1 := length_erase_of_mem hd
  have hpos := length_pos_of_mem hd
  omega

lemma within_search (type : DistillerType) : Within Wakes (search type) :=
  .bind .get fun _ => within_searchLoop _ type

/-- **The search returns, with what it should**, however many more rounds it may make. -/
theorem searchLoop_returns (type : DistillerType) (hs : Sound s) :
    ∃ found s', (∀ rounds, s.distillerDB.length < rounds →
      searchLoop rounds type s = some (found, s')) ∧ Searched s s' ∧ Answers type s' found := by
  -- every failure, this search's or a replacement's, leaves fewer distillers
  induction hn : s.distillerDB.length using Nat.strong_induction_on generalizing type s with
  | _ n ih =>
    subst hn
    cases hsl : s.sleeper type with
    | none =>
      refine ⟨none, s, fun rounds hro => ?_, .refl s, hsl⟩
      obtain _ | rounds := rounds
      · omega
      · exact searchLoop_nobody hsl
    | some d =>
      obtain ⟨hd, r, hr, hsa, hal⟩ := sleeper_spec hsl
      have hb (restart : DistillerType) :=
        ih _ (length_bereft hd (Nat.lt_succ_self _)) restart (hs.bereft d) rfl
      have hco : ∀ rounds, s.distillerDB.length < rounds + 1 →
          wakeUp (searchLoop rounds) d s = wakeUp search d s := by
        intro rounds hro
        refine wakeUp_congr hs hr hal fun _ restart _ => ?_
        obtain ⟨found, s', hf, -⟩ := hb restart
        rw [search, get_bind_run, hf _ (length_bereft hd hro), hf _ (Nat.lt_succ_self _)]
      by_cases hok : s.outcomes.headD .ok = .ok
      · obtain ⟨s', hw, hdb, hdi⟩ := @wakeUp_told search s d r hs hr hal hok
        refine ⟨some d, s', fun rounds hro => ?_, ⟨within_wakeUp within_search d hw hs.nodup, ?_⟩,
          hdb ▸ hd, r.awaken, ?_, hsa, rfl⟩
        · obtain _ | rounds := rounds
          · omega
          · exact searchLoop_told hsl ((hco rounds hro).trans hw)
        · intro d' hd'
          rw [hdi, set_cell_of_ne]
          rintro rfl
          exact hd' hd
        · rw [hdi]
          exact set_cell_self hr
      · obtain ⟨s₁, hw, hse, _, hl⟩ := exists_wakeUp_untold within_search hs hd hr hal hok (by
          intro restart _
          obtain ⟨found, s₁, hf, hse, ha⟩ := hb restart
          refine ⟨found, s₁, (get_bind_run _ _).trans (hf _ (Nat.lt_succ_self _)), hse, ?_⟩
          rintro d' rfl
          exact live_of_cell ha.2.choose_spec.1)
        obtain ⟨found, s', hf, haf, ha⟩ := ih _ hl type (hs.woken hse.woken).cleared rfl
        refine ⟨found, s', fun rounds hro => ?_, hse.cleared.trans haf, ha⟩
        obtain _ | rounds := rounds
        · omega
        · rw [searchLoop_untold hsl ((hco rounds hro).trans hw), hf rounds (by omega)]

lemma search_eq (type : DistillerType) (hs : Sound s) (hr : s.distillerDB.length < rounds) :
    search type s = searchLoop rounds type s := by
  obtain ⟨found, s', hf, -⟩ := searchLoop_returns type hs
  rw [search, get_bind_run, hf _ (Nat.lt_succ_self _), hf _ hr]

lemma exists_untold (hs : Sound s) (hro : s.distillerDB.length < rounds + 1)
    (hsl : s.sleeper type = some d) (hfa : s.outcomes.headD .ok ≠ .ok) :
    ∃ s₁, wakeUp search d s = some (false, s₁) ∧
      wakeUp (searchLoop rounds) d s = some (false, s₁) ∧ Sound s₁.cleared ∧
      s₁.distillers.cell d = none ∧ s₁.cleared.distillerDB.length < rounds := by
  obtain ⟨hd, r, hr, _, ha⟩ := sleeper_spec hsl
  have hlt := length_bereft hd hro
  obtain ⟨s₁, hw, hse, hg, hl⟩ := exists_wakeUp_untold within_search hs hd hr ha hfa (by
    intro restart _
    obtain ⟨found, s', hf, hse, ha⟩ := searchLoop_returns restart (hs.bereft d)
    refine ⟨found, s', (get_bind_run _ _).trans (hf _ (Nat.lt_succ_self _)), hse, ?_⟩
    rintro d' rfl
    exact live_of_cell ha.2.choose_spec.1)
  have hse' : wakeUp search d s = wakeUp (searchLoop rounds) d s :=
    wakeUp_congr hs hr ha fun _ restart _ => search_eq restart (hs.bereft d) hlt
  have hf : s₁.distillerDB.length < rounds := by omega
  exact ⟨s₁, hw, hse'.symm.trans hw, (hs.woken hse.woken).cleared, hg, hf⟩

/-! ## The code's loop -/

section

variable {s s₁ : State} {type : DistillerType} {dist : Option ℕ} {d rounds : ℕ}

lemma wakeLoop_nobody (hs : Sound s) (h : s.sleeper type = none) :
    wakeLoop (rounds + 1) type none s = some (none, s) := by
  rw [wakeLoop, get_bind_run, hs.findFirst, h]
  rfl

lemma wakeLoop_step (hs : Sound s) (h : (s.sleeper type).or dist = some d) :
    wakeLoop (rounds + 1) type dist s = (do
      if ← wakeUp (fun t => wakeLoop rounds t none) d then return some d
      else
        let s ← get
        if s.status = .errSocketWriteError then
          setStatus .success
          wakeLoop rounds type (some d)
        else return none : M (Option ℕ)) s := by
  rw [wakeLoop, get_bind_run, hs.findFirst, bind_run (show ofOption (some (s.sleeper type)) s =
    some (s.sleeper type, s) from rfl), h]

lemma wakeUp_status {wake : DistillerType → M (Option ℕ)}
    (h : wakeUp wake d s = some (false, s₁)) : s₁.status = .errSocketWriteError := by
  simp only [wakeUp, derefDistiller, ite_eq_some, run_iff] at h
  obtain ⟨r, _, ⟨_, h, _⟩ | ⟨_, written, _, _, ⟨_, h⟩ | ⟨_, _, _, _, _, _, hs, _, rfl⟩⟩⟩ := h
  · cases h
  · cases hl : r.launchRecord with
    | none =>
      simp only [hl, run_iff, Bool.false_eq_true, false_and] at h
    | some l =>
      simp only [hl, run_iff, Bool.false_eq_true, false_and, and_false, exists_false] at h
  · rw [setStatus, modify_eq_some] at hs
    rw [hs]

lemma wakeLoop_untold (hs : Sound s) (h : (s.sleeper type).or dist = some d)
    (hw : wakeUp (fun t => wakeLoop rounds t none) d s = some (false, s₁)) :
    wakeLoop (rounds + 1) type dist s = wakeLoop rounds type (some d) s₁.cleared := by
  rw [wakeLoop_step hs h, bind_run hw]
  simp only [Bool.false_eq_true, if_false]
  rw [get_bind_run, if_pos (wakeUp_status hw)]
  rfl

lemma wakeLoop_fault (hs : Sound s) (h : (s.sleeper type).or dist = some d)
    (hw : wakeUp (fun t => wakeLoop rounds t none) d s = none) :
    wakeLoop (rounds + 1) type dist s = none := by
  rw [wakeLoop_step hs h]
  exact bind_none hw _

end

/-- **Where nobody is left without a replacement, the code does what is meant.** -/
theorem wakeLoop_of_relieved (h : Relieved type s) (rounds : ℕ) (dist : Option ℕ) (hs : Sound s)
    (hro : s.distillerDB.length < rounds) (hdi : dist = none ∨ ∃ d, s.sleeper type = some d) :
    wakeLoop rounds type dist s = searchLoop rounds type s := by
  induction h generalizing rounds dist with
  | nobody type s hsl =>
    obtain _ | rounds := rounds
    · omega
    have hn : dist = none := by
      rcases hdi with hn | ⟨d, hd⟩
      · exact hn
      · rw [hsl] at hd
        cases hd
    rw [hn, wakeLoop_nobody hs hsl, searchLoop_nobody hsl]
  | told type s d hsl hok =>
    obtain _ | rounds := rounds
    · omega
    obtain ⟨_, r, hr, _, ha⟩ := sleeper_spec hsl
    have hf : (s.sleeper type).or dist = some d := by rw [hsl, Option.some_or]
    obtain ⟨s', hw, _⟩ := @wakeUp_told (searchLoop rounds) s d r hs hr ha hok
    have hsa : wakeUp (fun t => wakeLoop rounds t none) d s = wakeUp (searchLoop rounds) d s :=
      wakeUp_congr hs hr ha fun hfa => (hfa hok).elim
    rw [wakeLoop_step hs hf, bind_run (hsa.trans hw), searchLoop_told hsl hw]
    rfl
  | another type s s₁ d d' hsl hfa _ hw han _ ihrestart ih =>
    obtain _ | rounds := rounds
    · omega
    obtain ⟨hd, r, hr, _, ha⟩ := sleeper_spec hsl
    have hfe := length_bereft hd hro
    have hf : (s.sleeper type).or dist = some d := by rw [hsl, Option.some_or]
    have hsa : wakeUp (fun t => wakeLoop rounds t none) d s = wakeUp (searchLoop rounds) d s := by
      refine wakeUp_congr hs hr ha fun _ restart hre => ?_
      exact ihrestart restart hre rounds none (hs.bereft d) hfe (.inl rfl)
    obtain ⟨_, hse, hw', hs1, _, hl⟩ := exists_untold hs hro hsl hfa
    cases hse.symm.trans hw
    rw [wakeLoop_untold hs hf (hsa.trans hw'), searchLoop_untold hsl hw']
    exact ih rounds (some d) hs1 hl (.inr ⟨d', han⟩)

lemma wakeUp_deleted {wake : DistillerType → M (Option ℕ)} (h : s.distillers.cell d = none) :
    wakeUp wake d s = none := by
  refine bind_none ?_ _
  rw [derefDistiller, get_bind_run, h]
  rfl

/-- **Where the code returns, nobody was left without a replacement.** -/
theorem relieved_of_wakeLoop {rounds : ℕ} {type : DistillerType} {dist : Option ℕ} {s : State}
    (hs : Sound s) (hro : s.distillerDB.length < rounds)
    (hdi : ∀ d, dist = some d → s.distillers.cell d = none)
    (h : Halts (wakeLoop rounds type dist) s) :
    Relieved type s ∧ (dist = none ∨ ∃ d, s.sleeper type = some d) := by
  induction rounds generalizing type dist s with
  | zero => omega
  | succ rounds ih =>
    obtain ⟨found, s', h⟩ := h
    cases hsl : s.sleeper type with
    | none =>
      refine ⟨.nobody type s hsl, ?_⟩
      cases dist with
      | none => exact .inl rfl
      | some d =>
        -- the finder still points to the record that was deleted
        have hf := @wakeLoop_fault s type (some d) d rounds hs
          (by rw [hsl, Option.none_or]) (wakeUp_deleted (hdi d rfl))
        rw [hf] at h
        cases h
    | some d =>
      refine ⟨?_, .inr ⟨d, rfl⟩⟩
      by_cases hok : s.outcomes.headD .ok = .ok
      · exact .told type s d hsl hok
      obtain ⟨hd, r, hr, _, ha⟩ := sleeper_spec hsl
      have hfe := length_bereft hd hro
      have hfo : (s.sleeper type).or dist = some d := by rw [hsl, Option.some_or]
      have hde : Halts (evUnnaturalDeath (fun t => wakeLoop rounds t none) d) (s.bereft d) := by
        cases hde : evUnnaturalDeath (fun t => wakeLoop rounds t none) d (s.bereft d) with
        | some result => exact .of_eq hde
        | none =>
          have hf : wakeUp (fun t => wakeLoop rounds t none) d s = none := by
            rw [wakeUp_untold hs hr ha hok]
            exact bind_none hde _
          rw [wakeLoop_fault hs hfo hf] at h
          cases h
      -- the searches for a replacement return, and so were relieved themselves
      have hre : ∀ restart, s.restartType d = some restart → Relieved restart (s.bereft d) := by
        intro restart hre
        have hr' : (s.bereft d).distillers.cell d = some r := hr
        have hrt := halts_of_evUnnaturalDeath hr' hde hre
        exact (@ih restart none _ (hs.bereft d) hfe nofun hrt).1
      have hsa : wakeUp (fun t => wakeLoop rounds t none) d s = wakeUp (searchLoop rounds) d s := by
        refine wakeUp_congr hs hr ha fun _ restart h => ?_
        exact wakeLoop_of_relieved (hre restart h) rounds none (hs.bereft d) hfe (.inl rfl)
      obtain ⟨s₁, hse, hw, hs1, hg, hl⟩ := exists_untold hs hro hsl hok
      rw [wakeLoop_untold hs hfo (hsa.trans hw)] at h
      obtain ⟨hrl, han⟩ := ih hs1 hl (by
        rintro _ ⟨⟩
        exact hg) ⟨found, s', h⟩
      obtain ⟨d', hd'⟩ : ∃ d', s₁.sleeper type = some d' := by
        rcases han with hn | hd'
        · cases hn
        · exact hd'
      exact .another type s s₁ d d' hsl hok hre hse hd' hrl

lemma relieved_of_halts (hs : Sound s) (hr : s.distillerDB.length < rounds)
    (h : Halts (wakeSleepingDistiller rounds type) s) : Relieved type s :=
  (@relieved_of_wakeLoop rounds type none s hs hr nofun h).1

/-! ## The theorem -/

/-- **The search for a sleeping distiller behaves exactly when everyone who cannot be told to wake
up leaves another one to turn to.** -/
theorem behaves_iff (type : DistillerType) {s : State} (hs : Sound s) :
    Behaves type s ↔ Relieved type s := by
  constructor
  · rintro ⟨found, s', hrt, _⟩
    exact relieved_of_halts hs (Nat.lt_succ_self _) (.of_eq (hrt _ (Nat.lt_succ_self _)))
  · intro hre
    obtain ⟨found, s', hf, _, ha⟩ := searchLoop_returns type hs
    refine ⟨found, s', fun rounds hr => ?_, ha⟩
    rw [wakeSleepingDistiller, wakeLoop_of_relieved hre rounds none hs hr (.inl rfl), hf _ hr]

/-- **The objects of a PTM hold together in every state of a run**, if no reload drops a type that a
registered distiller is bound to. -/
theorem sound_of_run {ipNumber : CString MAXIP → UInt32} {s' : State} {inputs : List Input}
    (hs : Initial s) (h : Run (Guarded KeepsBoundTypes (step ipNumber)) s inputs s') :
    Sound s' := by
  obtain ⟨hd, hln, hli, ho⟩ : s'.distillers.ListedIn s'.distillerDB ∧
      Linked s'.connections s'.distillers ∧ s'.pendingLaunches.ListedIn s'.pendingList ∧
        s'.Owns := by
    refine runs_invariant (I := fun s => Linked s.connections s.distillers ∧
      s.pendingLaunches.ListedIn s.pendingList ∧ s.Owns)
      (fun s hs => ⟨(attended_of_initial hs).linked, owns_of_initial hs⟩) ?_ hs h
    rintro s ⟨e, outcomes, now⟩ s' hre ⟨hln, hli, ho⟩ hok hro
    refine ⟨hro.linked hln, hro.owns ⟨hli, ho⟩ ?_⟩
    rintro options rexecUpdated rfl d r hr l hl record hrc
    exact hok record.type (mem_boundTypes hre hr hl hrc)
  exact ⟨hd.nodup, fun d => (hd.mem_iff d).mp, hln, hli, ho⟩

/-- A distiller of type `a` registers asleep, with the digit of its address; then some system calls
are bound to end in a given way. -/
def registerAsleep (c : ℕ) (digit : UInt8) (outcomes : List Outcome) : List Input :=
  [calm .accept,
    ⟨.packet c ⟨PTMPacketType.pktRegisterDistiller.toWord, 0,
      [digit, 47, 56, 48, 124, 97, 124, 48, 124, 48], ten_le_maxPacketLength⟩ 0,
      outcomes, 0⟩]

/-- Two distillers sleep and the first cannot be told: the search turns to the other one. -/
theorem behaves_iff_twoSleepers :
    ∃ s s', Initial s ∧ Run (Guarded KeepsBoundTypes (step fun _ => 0)) s
      (registerAsleep 0 49 [] ++ registerAsleep 1 50 [.fail]) s' ∧ s'.outcomes = [.fail] ∧
      Behaves typeA s' := by
  obtain ⟨s, s', hs, hrun, ho, hl, hre⟩ := exists_run_of_playFrom KeepsBoundTypes
    (registerAsleep 0 49 [] ++ registerAsleep 1 50 [.fail])
    (fun s' => s'.outcomes = [.fail] ∧ s'.distillerDB.length = 2 ∧
      (wakeSleepingDistiller 3 typeA s').isSome) (by decide +kernel)
  obtain ⟨⟨found, s₁⟩, hf⟩ := Option.isSome_iff_exists.mp hre
  have hso := sound_of_run hs hrun
  have hro : s'.distillerDB.length < 3 := by omega
  have hr := relieved_of_halts hso hro (.of_eq hf)
  exact ⟨s, s', hs, hrun, ho, (behaves_iff typeA hso).mpr hr⟩

/-- The only sleeper cannot be told: the search goes on with the record that was deleted. -/
theorem lastSleeper_dangles :
    ∃ s s', Initial s ∧ Run (step fun _ => 0) s (registerAsleep 0 49 [.fail]) s' ∧ Sound s' ∧
      s'.sleeper typeA = some 0 ∧ wakeSleepingDistiller 2 typeA s' = none ∧
      ¬ Behaves typeA s' := by
  obtain ⟨s, s', hs, hrun, hl, hsl, hf⟩ := exists_run_of_playFrom KeepsBoundTypes
    (registerAsleep 0 49 [.fail]) (fun s' => s'.distillerDB.length = 1 ∧
      s'.sleeper typeA = some 0 ∧ (wakeSleepingDistiller 2 typeA s').isNone) (by decide +kernel)
  rw [Option.isNone_iff_eq_none] at hf
  refine ⟨s, s', hs, hrun.mono fun _ _ _ h => h.2, sound_of_run hs hrun, hsl, hf, ?_⟩
  rintro ⟨found, s₁, hr, _⟩
  have hr := hr 2 (by omega)
  rw [hf] at hr
  cases hr

end Glomop.Ptm
