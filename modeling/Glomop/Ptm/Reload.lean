import Glomop.Ptm.Handlers
import Glomop.Share.RExec

/-!
# Reading the options again

When the options file has changed, the notification of the front ends depends on a chain of three
return values.  `Glomop.Ptm.Handlers` takes the first from the surroundings; here it is the one that
`Glomop.Share.RExec` computes, which is `gm_False` in any case.  So no front end ever hears of it.
-/

namespace Glomop.Ptm

open Lib Prog Share

/-- What the PTM reads of an options file; an option that is missing is empty.
`share/options.cc` `OptionDatabase`, as `distlaunch.cc` uses it. -/
structure OptionDatabase where
  /-- The `dist.*` entries. -/
  dist : Options
  rsh : Bytes
  rshArgs : Bytes
  hosts : Bytes

section

variable (resolve : Bytes → Bytes) (garbage : ℕ → Int32)

/-- `distlaunch.cc` `DistillerLauncher::OptionsUpdate`. -/
def launcherOptionsUpdate (rexec : RExec) (options : OptionDatabase) : M (Bool × RExec) := do
  if ← update options.dist.entries then
    let updated := rexec.update options.rsh options.rshArgs options.hosts resolve garbage
    if updated.1 then return (true, updated.2) else return (false, updated.2)
  else return (false, rexec)

/-- The return value, the hosts, and the connections that a `pktFlushNCache` is written to.
`ptm.cc` `PTM::OptionsUpdate`. -/
def ptmOptionsUpdate (rexec : RExec) (options : OptionDatabase) :
    M (Bool × RExec × List ℕ) := do
  let launcher ← launcherOptionsUpdate resolve garbage rexec options
  if launcher.1 then
    let s ← get
    let sent ← flushFrontEnds s.listOfConnections
    return (true, launcher.2, sent)
  else return (false, launcher.2, [])

end

/-! ## The machine's event -/

lemma optionsUpdate_eq_map (resolve : Bytes → Bytes) (garbage : ℕ → Int32) (rexec : RExec)
    (options : OptionDatabase) :
    optionsUpdate options.dist
        (rexec.update options.rsh options.rshArgs options.hosts resolve garbage).1 =
      (·.1) <$> ptmOptionsUpdate resolve garbage rexec options := by
  unfold optionsUpdate ptmOptionsUpdate launcherOptionsUpdate
  rw [map_bind, bind_assoc]
  refine bind_congr fun recorded => ?_
  cases recorded with
  | false => rfl
  | true =>
    dsimp only
    rw [if_pos rfl, if_pos rfl]
    cases (rexec.update options.rsh options.rshArgs options.hosts resolve garbage).1 with
    | false => rfl
    | true => simp

/-! ## What a reload does -/

/-- A host whose name was on the old list has the load level it had there. -/
def KeepsLevels (oldHosts hosts : List Host) : Prop :=
  ∀ host ∈ hosts, ∀ old, (oldHosts.find? fun old => host.name = old.name) = some old →
    host.loadLevel = old.loadLevel

lemma keepsLevels_map_carryOver (oldHosts hosts : List Host) :
    KeepsLevels oldHosts (hosts.map (RExec.carryOver oldHosts)) := by
  intro host hh old hold
  obtain ⟨host, _, rfl⟩ := List.mem_map.mp hh
  unfold RExec.carryOver at hold ⊢
  cases hf : oldHosts.find? fun old => host.name = old.name with
  | none =>
    rw [hf] at hold
    exact absurd (hf.symm.trans hold) (by simp)
  | some first =>
    rw [hf] at hold
    obtain rfl : first = old := Option.some.inj (hf.symm.trans hold)
    rfl

section

variable (resolve : Bytes → Bytes) (garbage : ℕ → Int32)

/-- Both parts of the options are in order: `LaunchDatabase::Update` and `RExec::Initialize`
succeed, and leave `s₁` and `rexec₁`. -/
structure Succeeds (s : State) (rexec : RExec) (options : OptionDatabase) (s₁ : State)
    (rexec₁ : RExec) : Prop where
  launchDB : update options.dist.entries s = some (true, s₁)
  hosts : rexec.initializeRExec options.rsh options.rshArgs options.hosts resolve garbage =
    (true, rexec₁)

/-- **A reload takes effect**: if the options are in order both functions return `gm_True`, every
front end is sent a `pktFlushNCache`, and no host loses its load level. -/
def TakesEffect (s : State) (rexec : RExec) (options : OptionDatabase) : Prop :=
  ∀ s₁ rexec₁, Succeeds resolve garbage s rexec options s₁ rexec₁ → ∃ rexec' sent s',
    launcherOptionsUpdate resolve garbage rexec options s = some ((true, rexec'), s₁) ∧
    ptmOptionsUpdate resolve garbage rexec options s = some ((true, rexec', sent), s') ∧
    (∀ c ∈ s₁.listOfConnections, ∀ connection, s₁.connections.cell c = some connection →
      connection.record = none → c ∈ sent) ∧
    KeepsLevels rexec.hosts rexec'.hosts

variable {resolve garbage}

lemma Succeeds.run {s s1 : State} {rexec rexec₁ : RExec} {options : OptionDatabase}
    (h : Succeeds resolve garbage s rexec options s1 rexec₁) : ∃ rexec',
      launcherOptionsUpdate resolve garbage rexec options s = some ((false, rexec'), s1) ∧
      ptmOptionsUpdate resolve garbage rexec options s = some ((false, rexec', []), s1) ∧
      KeepsLevels rexec.hosts rexec'.hosts := by
  have hu : rexec.update options.rsh options.rshArgs options.hosts resolve garbage =
      (false, { rexec₁ with hosts := rexec₁.hosts.map (RExec.carryOver rexec.hosts) }) := by
    unfold RExec.update
    rw [h.hosts]
    rfl
  have hl : launcherOptionsUpdate resolve garbage rexec options s =
      some ((false, { rexec₁ with hosts := rexec₁.hosts.map (RExec.carryOver rexec.hosts) }),
        s1) := by
    unfold launcherOptionsUpdate
    rw [bind_run h.launchDB, if_pos rfl, hu]
    rfl
  refine ⟨_, hl, ?_, keepsLevels_map_carryOver rexec.hosts rexec₁.hosts⟩
  unfold ptmOptionsUpdate
  rw [bind_run hl]
  rfl

/-- **Which reloads take effect**: only those of options that are not in order, of which nothing is
expected.  All others update the hosts, keep their load levels, and are then taken for failures. -/
theorem takesEffect_iff (resolve : Bytes → Bytes) (garbage : ℕ → Int32) (s : State) (rexec : RExec)
    (options : OptionDatabase) :
    (TakesEffect resolve garbage s rexec options ↔
      ¬ ∃ s₁ rexec₁, Succeeds resolve garbage s rexec options s₁ rexec₁) ∧
    ∀ s₁ rexec₁, Succeeds resolve garbage s rexec options s₁ rexec₁ → ∃ rexec',
      launcherOptionsUpdate resolve garbage rexec options s = some ((false, rexec'), s₁) ∧
      ptmOptionsUpdate resolve garbage rexec options s = some ((false, rexec', []), s₁) ∧
      KeepsLevels rexec.hosts rexec'.hosts := by
  refine ⟨⟨?_, ?_⟩, fun s₁ rexec₁ h => h.run⟩
  · rintro he ⟨s₁, rexec₁, h⟩
    obtain ⟨rexec', hf, _⟩ := h.run
    obtain ⟨rexec'', _, _, ht, _⟩ := he s₁ rexec₁ h
    have heq : (false, rexec') = (true, rexec'') :=
      congrArg Prod.fst (Option.some.inj (hf.symm.trans ht))
    exact absurd (congrArg Prod.fst heq) Bool.false_ne_true
  · intro hn s₁ rexec₁ h
    exact absurd ⟨s₁, rexec₁, h⟩ hn

end

def oneFrontEnd : State := (State.start ⟨CString.empty _, 0⟩ 0).acceptConnection

/-- Options with no `dist.*` entries and one host. -/
def oneHost : OptionDatabase := ⟨⟨[], List.nodup_nil⟩, [], [], [111, 97, 107]⟩

/-- A reload of options with a single host is taken for a failure, and the front end is not told. -/
theorem reload_not_announced :
    (∃ s₁ rexec₁, Succeeds id (fun _ => 0) oneFrontEnd .new oneHost s₁ rexec₁ ∧
      s₁.listOfConnections = [0] ∧ s₁.connections.cell 0 = some ⟨none⟩) ∧
    ∃ rexec' s', ptmOptionsUpdate id (fun _ => 0) .new oneHost oneFrontEnd =
      some ((false, rexec', []), s') :=
  ⟨⟨_, _, ⟨rfl, rfl⟩, rfl, rfl⟩, _, _, rfl⟩

end Glomop.Ptm
